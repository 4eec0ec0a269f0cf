/-
`Dnp3DockerServer` of `cursus/dnp3/docker_server.py`: the `docker compose` commands that `start` and
`stop` issue, whatever comes of them, and when the server forgets a container that may still run.
-/
import Cursus.Dnp3.Outstation
import Cursus.Python.Effect

namespace Cursus.Dnp3

open Cursus.Python Cursus.Run

/-! ## The server -/

/-- `Dnp3DockerServer`. -/
structure Dnp3DockerServer where
  port : ℤ
  config : Dnp3OutstationConfig := {}
  running : Bool := false

/-- What `subprocess.run` raises for a command that fails, and for one that runs out of time. -/
inductive SubprocessError
  | calledProcessError | timeoutExpired
  deriving DecidableEq

/-- A command that was issued, and what came of it. -/
structure Command where
  arguments : List String
  environment : String → Option String
  timeout : ℕ
  result : Except SubprocessError Unit

/-- The server, and the commands that were issued. -/
structure World where
  server : Dnp3DockerServer
  issued : List Command := []

/-- `__init__`, before any command. -/
def World.init (port : ℤ) (config : Dnp3OutstationConfig) : World := ⟨⟨port, config, false⟩, []⟩

/-- The surroundings of the server: the environment of its process, the directory of the package, and
what comes of each command it issues. -/
structure Surroundings where
  environ : String → Option String
  package : String
  results : ℕ → Except SubprocessError Unit

/-- `_project_name`. -/
def Dnp3DockerServer.projectName (server : Dnp3DockerServer) : String := "cursus-dnp3-" ++ toString server.port

/-- `_compose_environment`. -/
def Dnp3DockerServer.composeEnvironment (server : Dnp3DockerServer) (environ : String → Option String) :
    String → Option String :=
  [("DNP3_HOST", "0.0.0.0"),
    ("DNP3_PORT", toString server.port),
    ("DNP3_DATABASE_SIZE", toString server.config.databaseSize),
    ("DNP3_EVENT_BUFFER_SIZE", toString server.config.eventBufferSize),
    ("DNP3_LOCAL_ADDR", toString server.config.localAddr),
    ("DNP3_REMOTE_ADDR", toString server.config.remoteAddr)].foldl
      (fun env entry => Function.update env entry.1 (some entry.2)) environ

section Calls

variable (u : Surroundings)

/-- `_compose_file`. -/
def composeFile : String := u.package ++ "/assets/docker-compose.dnp3.yml"

/-- `_compose_command`. -/
def composeCommand (server : Dnp3DockerServer) (args : List String) : List String :=
  ["docker", "compose", "-p", server.projectName, "-f", composeFile u] ++ args

/-- The server after a command, with what comes of it. -/
def World.issue (w : World) (args : List String) (timeout : ℕ) (result : Except SubprocessError Unit) : World :=
  { w with
    issued := w.issued ++
      [⟨composeCommand u w.server args, w.server.composeEnvironment u.environ, timeout, result⟩] }

/-- `_run_compose`. -/
def runCompose (args : List String) (timeout : ℕ) : EStateM SubprocessError World Unit := do
  let w : World ← get
  let result := u.results w.issued.length
  set (w.issue u args timeout result)
  MonadExcept.ofExcept result

/-- `start`. -/
def start : EStateM SubprocessError World Unit := do
  if (← get).server.running then return
  runCompose u ["up", "--build", "-d"] 60
  modify fun w => { w with server := { w.server with running := true } }

/-- `stop`. -/
def stop : EStateM SubprocessError World Unit := do
  if ¬ (← get).server.running then return
  try
    runCompose u ["down", "--remove-orphans"] 20
  catch
    | .timeoutExpired =>
      runCompose u ["kill"] 10
      runCompose u ["down", "--remove-orphans"] 20
    | e => throw e
  finally
    modify fun w => { w with server := { w.server with running := false } }

/-! ## Runs -/

inductive Call
  | start
  | stop

/-- What a call leaves, whether it returns or raises. -/
def outcome : EStateM.Result SubprocessError World Unit → Except SubprocessError Unit × World
  | .ok _ w => (.ok (), w)
  | .error e w => (.error e, w)

def step : Step World Call (Except SubprocessError Unit)
  | .start, w => outcome (start u w)
  | .stop, w => outcome (stop u w)

/-! ## The commands of a call -/

def World.setRunning (w : World) (running : Bool) : World :=
  { w with server := { w.server with running := running } }

/-- The command `up`, whatever comes of it. -/
def IsUp (c : Command) : Prop := c.arguments.drop 6 = ["up", "--build", "-d"]

/-- The command `down` with success. -/
def IsDown (c : Command) : Prop := c.arguments.drop 6 = ["down", "--remove-orphans"] ∧ c.result = .ok ()

/-- A container may be running: `up` was issued, and no `down` has succeeded since. -/
def World.MayRun (w : World) : Prop := Live IsUp IsDown w.issued

variable {u} {w : World}

theorem mayRun_issue_up (timeout : ℕ) (result : Except SubprocessError Unit) :
    (w.issue u ["up", "--build", "-d"] timeout result).MayRun :=
  live_snoc_iff.2 (.inl rfl)

theorem mayRun_issue_kill (timeout : ℕ) (result : Except SubprocessError Unit) :
    (w.issue u ["kill"] timeout result).MayRun ↔ w.MayRun := by
  have hup : ¬ IsUp ⟨composeCommand u w.server ["kill"], w.server.composeEnvironment u.environ,
      timeout, result⟩ := by
    simp [IsUp, composeCommand]
  have hdown : ¬ IsDown ⟨composeCommand u w.server ["kill"], w.server.composeEnvironment u.environ,
      timeout, result⟩ := by
    simp [IsDown, composeCommand]
  unfold World.MayRun World.issue
  rw [live_snoc_iff]
  tauto

theorem mayRun_issue_down (timeout : ℕ) (result : Except SubprocessError Unit) :
    (w.issue u ["down", "--remove-orphans"] timeout result).MayRun ↔ w.MayRun ∧ result ≠ .ok () := by
  have hup : ¬ IsUp ⟨composeCommand u w.server ["down", "--remove-orphans"],
      w.server.composeEnvironment u.environ, timeout, result⟩ := by
    simp [IsUp, composeCommand]
  have hdown : IsDown ⟨composeCommand u w.server ["down", "--remove-orphans"],
      w.server.composeEnvironment u.environ, timeout, result⟩ ↔ result = .ok () := by
    simp [IsDown, composeCommand]
  unfold World.MayRun World.issue
  rw [live_snoc_iff, hdown]
  tauto

/-! ## The calls -/

theorem runCompose_returns {args : List String} {timeout : ℕ} (h : u.results w.issued.length = .ok ()) :
    runCompose u args timeout w = .ok () (w.issue u args timeout (.ok ())) := by
  unfold runCompose
  rw [get_returns]
  simp only [h]
  rw [set_returns]
  rfl

theorem runCompose_raises {args : List String} {timeout : ℕ} {e : SubprocessError}
    (h : u.results w.issued.length = .error e) :
    runCompose u args timeout w = .error e (w.issue u args timeout (.error e)) := by
  unfold runCompose
  rw [get_returns]
  simp only [h]
  rw [set_returns]
  rfl

theorem start_running (h : w.server.running = true) : start u w = .ok () w := by
  unfold start
  rw [get_returns, if_pos h]
  rfl

theorem start_returns (h : w.server.running = false) (hup : u.results w.issued.length = .ok ()) :
    start u w = .ok () ((w.issue u ["up", "--build", "-d"] 60 (.ok ())).setRunning true) := by
  unfold start
  rw [get_returns, if_neg (by simp [h])]
  exact bind_returns (runCompose_returns hup)

theorem start_raises {e : SubprocessError} (h : w.server.running = false)
    (hup : u.results w.issued.length = .error e) :
    start u w = .error e (w.issue u ["up", "--build", "-d"] 60 (.error e)) := by
  unfold start
  rw [get_returns, if_neg (by simp [h])]
  exact bind_raises (runCompose_raises hup)

theorem stop_idle (h : w.server.running = false) : stop u w = .ok () w := by
  unfold stop
  rw [get_returns, if_pos (by simp [h])]
  rfl

variable (u) in
/-- The statements of `stop` that take the container down. -/
def takeDown : EStateM SubprocessError World Unit :=
  tryCatch (runCompose u ["down", "--remove-orphans"] 20) fun
    | .timeoutExpired => do
      runCompose u ["kill"] 10
      runCompose u ["down", "--remove-orphans"] 20
    | e => throw e

theorem stop_running (h : w.server.running = true) :
    stop u w = tryFinally (takeDown u) (modify fun w => w.setRunning false) w := by
  unfold stop
  rw [get_returns, if_neg (by simp [h])]
  rfl

variable (u w) in
/-- The next commands take the container down: `down` succeeds at once, or after it has run out of time
and `kill` has succeeded. -/
def TakesDown : Prop :=
  u.results w.issued.length = .ok () ∨
    u.results w.issued.length = .error .timeoutExpired ∧ u.results (w.issued.length + 1) = .ok () ∧
      u.results (w.issued.length + 2) = .ok ()

theorem length_issue (args : List String) (timeout : ℕ) (result : Except SubprocessError Unit) :
    (w.issue u args timeout result).issued.length = w.issued.length + 1 := by
  simp [World.issue]

/-- When `down` has run out of time, what comes of `stop` is what comes of `kill` and the second `down`. -/
theorem takeDown_timeoutExpired (h : u.results w.issued.length = .error .timeoutExpired) :
    takeDown u w = (do
      runCompose u ["kill"] 10
      runCompose u ["down", "--remove-orphans"] 20)
        (w.issue u ["down", "--remove-orphans"] 20 (.error .timeoutExpired)) :=
  catch_raises (runCompose_raises h)

theorem takeDown_returns (h : TakesDown u w) : ∃ w', takeDown u w = .ok () w' ∧ ¬ w'.MayRun := by
  rcases h with h | ⟨h, hkill, hdown⟩
  · refine ⟨_, catch_returns (runCompose_returns h), ?_⟩
    rw [mayRun_issue_down]
    simp
  · rw [takeDown_timeoutExpired h, bind_returns (runCompose_returns (by rw [length_issue, hkill]))]
    refine ⟨_, runCompose_returns (by rw [length_issue, length_issue, hdown]), ?_⟩
    rw [mayRun_issue_down]
    simp

theorem takeDown_raises (h : ¬ TakesDown u w) : ∃ e w', takeDown u w = .error e w' ∧ (w'.MayRun ↔ w.MayRun) := by
  rw [TakesDown, not_or] at h
  obtain ⟨hfirst, hrest⟩ := h
  rcases hdown : u.results w.issued.length with e | _
  swap
  · exact absurd hdown hfirst
  cases e with
  | calledProcessError =>
    refine ⟨.calledProcessError, _, catch_raises (runCompose_raises hdown), ?_⟩
    rw [mayRun_issue_down]
    simp
  | timeoutExpired =>
    rw [takeDown_timeoutExpired hdown]
    rcases hkill : u.results (w.issued.length + 1) with e | _
    · refine ⟨e, _, bind_raises (runCompose_raises (by rw [length_issue, hkill])), ?_⟩
      rw [mayRun_issue_kill, mayRun_issue_down]
      simp
    · rw [bind_returns (runCompose_returns (by rw [length_issue, hkill]))]
      rcases hsecond : u.results (w.issued.length + 2) with e | _
      · refine ⟨e, _, runCompose_raises (by rw [length_issue, length_issue, hsecond]), ?_⟩
        rw [mayRun_issue_down, mayRun_issue_kill, mayRun_issue_down]
        simp
      · exact absurd ⟨hdown, hkill, hsecond⟩ hrest

/-- A running service is not running for the server behind `stop`, whatever came of it. -/
theorem step_stop (h : w.server.running = true) :
    (step u .stop w).2.server.running = false ∧
      ((TakesDown u w ∧ ¬ (step u .stop w).2.MayRun) ∨
        (¬ TakesDown u w ∧ ((step u .stop w).2.MayRun ↔ w.MayRun))) := by
  by_cases hdown : TakesDown u w
  · obtain ⟨w', htake, hmay⟩ := takeDown_returns hdown
    have hstop : stop u w = .ok () (w'.setRunning false) := by
      rw [stop_running h]
      exact finally_returns htake rfl
    rw [step, hstop]
    exact ⟨rfl, .inl ⟨hdown, hmay⟩⟩
  · obtain ⟨e, w', htake, hmay⟩ := takeDown_raises hdown
    have hstop : stop u w = .error e (w'.setRunning false) := by
      rw [stop_running h]
      exact finally_raises htake rfl
    rw [step, hstop]
    exact ⟨rfl, .inr ⟨hdown, hmay⟩⟩

theorem step_start (h : w.server.running = false) :
    (step u .start w).2.MayRun ∧
      ((step u .start w).2.server.running = true ↔ u.results w.issued.length = .ok ()) := by
  rcases hup : u.results w.issued.length with e | _
  · rw [step, start_raises h hup]
    refine ⟨mayRun_issue_up .., iff_of_false ?_ nofun⟩
    exact Bool.eq_false_iff.1 h
  · rw [step, start_returns h hup]
    exact ⟨mayRun_issue_up .., iff_of_true rfl rfl⟩

/-! ## What the server forgets -/

/-- Without the flag, nothing is left running. -/
def World.ForgetsNothing (w : World) : Prop := w.server.running = false → ¬ w.MayRun

variable (u w) in
/-- The commands of the call are carried out: `up` of a start, `down` of a stop. -/
def CarriedOut : Call → Prop
  | .start => w.server.running = false → u.results w.issued.length = .ok ()
  | .stop => w.server.running = true → TakesDown u w

/-- The flag is set only for a container that was started. -/
theorem mayRun_step (c : Call) (h : w.server.running = true → w.MayRun) :
    (step u c w).2.server.running = true → (step u c w).2.MayRun := by
  cases hrunning : w.server.running with
  | false =>
    cases c with
    | start => exact fun _ => (step_start hrunning).1
    | stop =>
      rw [step, stop_idle hrunning]
      exact h
  | true =>
    cases c with
    | start =>
      rw [step, start_running hrunning]
      exact h
    | stop =>
      rw [(step_stop hrunning).1]
      nofun

theorem forgetsNothing_step_iff (c : Call) (hmay : w.server.running = true → w.MayRun) (h : w.ForgetsNothing) :
    (step u c w).2.ForgetsNothing ↔ CarriedOut u w c := by
  cases hrunning : w.server.running with
  | false =>
    cases c with
    | start =>
      obtain ⟨hmay', hflag⟩ := step_start (u := u) hrunning
      unfold World.ForgetsNothing CarriedOut
      rw [← hflag, ← Bool.not_eq_true]
      tauto
    | stop =>
      rw [step, stop_idle hrunning]
      apply iff_of_true h
      rw [CarriedOut, hrunning]
      nofun
  | true =>
    cases c with
    | start =>
      rw [step, start_running hrunning]
      apply iff_of_true h
      rw [CarriedOut, hrunning]
      nofun
    | stop =>
      obtain ⟨hflag, hcases⟩ := step_stop (u := u) hrunning
      have hw := hmay hrunning
      unfold World.ForgetsNothing CarriedOut
      rcases hcases with ⟨hdown, hnot⟩ | ⟨hdown, hiff⟩
      · exact iff_of_true (fun _ => hnot) fun _ => hdown
      · exact iff_of_false (fun hf => hf hflag (hiff.2 hw)) fun hc => hdown (hc hrunning)

variable (u) in
/-- Between the calls of a run nothing is left running behind the back of the server, iff the commands of
every call were carried out. -/
theorem forgetsNothing_run_iff (port : ℤ) (config : Dnp3OutstationConfig) (calls : List Call) :
    (∀ before, before <+: calls → (final (step u) before (.init port config)).ForgetsNothing) ↔
      ∀ x ∈ transitions (step u) calls (.init port config), CarriedOut u x.before x.event :=
  everywhere_iff (J := fun w => w.server.running = true → w.MayRun) nofun (fun _ => not_live_nil)
    (fun c _ => mayRun_step c) (fun c _ => forgetsNothing_step_iff c) calls

/-- An `up` that runs out of time leaves the server without its flag. -/
theorem not_forgetsNothing_timeoutExpired :
    ¬ (final (step ⟨fun _ => none, "/cursus/dnp3", fun _ => .error .timeoutExpired⟩) [.start]
      (.init 20000 {})).ForgetsNothing := by
  intro h
  exact h rfl (step_start rfl).1

end Calls

end Cursus.Dnp3
