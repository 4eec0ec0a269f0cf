/-
From `Dnp3DockerServer` of `cursus/dnp3/docker_server.py` to the outstation in its container: the environment
of `docker compose`, the interpolation of `assets/docker-compose.dnp3.yml` and `assets/run_server.py`. Whatever
the environment of the host, the container serves the port and the configuration that the server was made with,
except that it does not start for a `LOG_LEVEL` of the host that is no name of a level.
-/
import Cursus.Dnp3.Docker
import Cursus.Python.Int

namespace Cursus.Dnp3

open Cursus.Python Cursus.Run

/-! ## The service -/

/-- `${name:-default}` in the file of the service: the default also stands for an empty variable. -/
def interpolate (env : String → Option String) (name default : String) : String :=
  match env name with
  | none => default
  | some value => if value = "" then default else value

/-- The port on the host, and the one in the container. -/
def composePorts (env : String → Option String) : String × String :=
  (interpolate env "DNP3_PORT" "20000", interpolate env "DNP3_PORT" "20000")

/-- What the service adds to the environment of its image. -/
def containerEnviron (image env : String → Option String) : String → Option String :=
  [("DNP3_HOST", interpolate env "DNP3_HOST" "0.0.0.0"),
    ("DNP3_PORT", interpolate env "DNP3_PORT" "20000"),
    ("DNP3_LOCAL_ADDR", interpolate env "DNP3_LOCAL_ADDR" "10"),
    ("DNP3_REMOTE_ADDR", interpolate env "DNP3_REMOTE_ADDR" "1"),
    ("DNP3_DATABASE_SIZE", interpolate env "DNP3_DATABASE_SIZE" "10"),
    ("DNP3_EVENT_BUFFER_SIZE", interpolate env "DNP3_EVENT_BUFFER_SIZE" "10"),
    ("LOG_LEVEL", interpolate env "LOG_LEVEL" "INFO")].foldl
      (fun environ entry => Function.update environ entry.1 (some entry.2)) image

/-! ## The server in the container -/

/-- `_read_int`. -/
def readInt (environ : String → Option String) (name : String) (default : ℤ) : Except PyError ℤ :=
  match environ name with
  | some value => int value
  | none => .ok default

/-- The names of levels that `logging` knows. -/
def levelNames : List String := ["CRITICAL", "FATAL", "ERROR", "WARN", "WARNING", "INFO", "DEBUG", "NOTSET"]

/-- `logging.basicConfig`. -/
def basicConfig (level : String) : Except PyError Unit := if level ∈ levelNames then .ok () else .error .valueError

/-- `main`, up to the start of the server. -/
def main (environ : String → Option String) : Except PyError Dnp3OutstationServer := do
  basicConfig ((environ "LOG_LEVEL").getD "INFO")
  let port ← readInt environ "DNP3_PORT" 20000
  let databaseSize ← readInt environ "DNP3_DATABASE_SIZE" 10
  let eventBufferSize ← readInt environ "DNP3_EVENT_BUFFER_SIZE" 10
  let localAddr ← readInt environ "DNP3_LOCAL_ADDR" 10
  let remoteAddr ← readInt environ "DNP3_REMOTE_ADDR" 1
  return .init ((environ "DNP3_HOST").getD "0.0.0.0") port (some ⟨databaseSize, eventBufferSize, localAddr, remoteAddr⟩)

/-! ## One launch -/

/-- `str` has no more digits to write than `int` reads. -/
def Printable (n : ℤ) : Prop := (Nat.toDigits 10 n.natAbs).length ≤ maxStrDigits

instance (n : ℤ) : Decidable (Printable n) := inferInstanceAs (Decidable (_ ≤ _))

structure Dnp3OutstationConfig.Printable (config : Dnp3OutstationConfig) : Prop where
  databaseSize : Dnp3.Printable config.databaseSize
  eventBufferSize : Dnp3.Printable config.eventBufferSize
  localAddr : Dnp3.Printable config.localAddr
  remoteAddr : Dnp3.Printable config.remoteAddr

theorem toString_ne_empty {n : ℤ} (h : Printable n) : toString n ≠ "" := by
  intro hempty
  have hint := int_toString h
  rw [hempty] at hint
  cases hint

section Launch

variable {environ image : String → Option String} {server : Dnp3DockerServer}

/-- A variable that the server sets comes through as it is. -/
theorem interpolate_of_eq {env : String → Option String} {name value default : String} (h : env name = some value)
    (hne : value ≠ "") : interpolate env name default = value := by
  simp only [interpolate, h, if_neg hne]

theorem interpolate_congr {env env' : String → Option String} {name : String} (h : env name = env' name)
    (default : String) : interpolate env name default = interpolate env' name default := by
  rw [interpolate, interpolate, h]

theorem readInt_of_eq {environ : String → Option String} {name : String} {n : ℤ} (h : environ name = some (toString n))
    (hn : Printable n) (default : ℤ) : readInt environ name default = .ok n := by
  rw [readInt, h]
  exact int_toString hn

/-- The container serves what the server was made with. -/
theorem main_container (hport : Printable server.port) (hconfig : server.config.Printable) :
    main (containerEnviron image (server.composeEnvironment environ)) =
      if interpolate environ "LOG_LEVEL" "INFO" ∈ levelNames then .ok (.init "0.0.0.0" server.port (some server.config))
      else .error .valueError := by
  have hset : ∀ name ∈ ["DNP3_HOST", "DNP3_PORT", "DNP3_LOCAL_ADDR", "DNP3_REMOTE_ADDR", "DNP3_DATABASE_SIZE",
      "DNP3_EVENT_BUFFER_SIZE"], ∀ value, server.composeEnvironment environ name = some value → value ≠ "" →
        containerEnviron image (server.composeEnvironment environ) name = some value := by
    intro name hname value hvalue hne
    have hinterpolate : ∀ default, interpolate (server.composeEnvironment environ) name default = value :=
      fun default => interpolate_of_eq hvalue hne
    simp only [List.mem_cons, List.not_mem_nil, or_false] at hname
    rcases hname with rfl | rfl | rfl | rfl | rfl | rfl <;> simp [containerEnviron, hinterpolate]
  have hread : ∀ name ∈ ["DNP3_HOST", "DNP3_PORT", "DNP3_LOCAL_ADDR", "DNP3_REMOTE_ADDR", "DNP3_DATABASE_SIZE",
      "DNP3_EVENT_BUFFER_SIZE"], ∀ n : ℤ, server.composeEnvironment environ name = some (toString n) → Printable n →
        ∀ default, readInt (containerEnviron image (server.composeEnvironment environ)) name default = .ok n :=
    fun name hname n hn hprintable default =>
      readInt_of_eq (hset name hname _ hn (toString_ne_empty hprintable)) hprintable default
  have hlevel : containerEnviron image (server.composeEnvironment environ) "LOG_LEVEL" =
      some (interpolate environ "LOG_LEVEL" "INFO") := by
    rw [← interpolate_congr (show server.composeEnvironment environ "LOG_LEVEL" = environ "LOG_LEVEL" by
      simp [Dnp3DockerServer.composeEnvironment])]
    simp [containerEnviron]
  have hhost := hset "DNP3_HOST" (by simp) "0.0.0.0" (by simp [Dnp3DockerServer.composeEnvironment]) (by simp)
  have hp := hread "DNP3_PORT" (by simp) server.port (by simp [Dnp3DockerServer.composeEnvironment]) hport
  have hd := hread "DNP3_DATABASE_SIZE" (by simp) server.config.databaseSize
    (by simp [Dnp3DockerServer.composeEnvironment]) hconfig.databaseSize
  have he := hread "DNP3_EVENT_BUFFER_SIZE" (by simp) server.config.eventBufferSize
    (by simp [Dnp3DockerServer.composeEnvironment]) hconfig.eventBufferSize
  have hl := hread "DNP3_LOCAL_ADDR" (by simp) server.config.localAddr
    (by simp [Dnp3DockerServer.composeEnvironment]) hconfig.localAddr
  have hr := hread "DNP3_REMOTE_ADDR" (by simp) server.config.remoteAddr
    (by simp [Dnp3DockerServer.composeEnvironment]) hconfig.remoteAddr
  unfold main
  rw [hlevel, hhost, hp, hd, he, hl, hr, Option.getD_some, basicConfig]
  split
  · rfl
  · rfl

end Launch

/-! ## Runs -/

section Runs

variable {u : Surroundings} {I : World → Prop}

/-- Where a call leaves the world, whether it returns or raises. -/
def after {ε σ α : Type} : EStateM.Result ε σ α → σ
  | .ok _ s => s
  | .error _ s => s

/-- The call keeps what holds of the world. -/
def Keeps (I : World → Prop) {α : Type} (x : EStateM SubprocessError World α) : Prop := ∀ w, I w → I (after (x w))

theorem Keeps.bind {α β : Type} {x : EStateM SubprocessError World α} {f : α → EStateM SubprocessError World β}
    (hx : Keeps I x) (hf : ∀ a, Keeps I (f a)) : Keeps I (x >>= f) := by
  intro w hw
  have hxw := hx w hw
  rcases h : x w with ⟨a, w'⟩ | ⟨e, w'⟩
  · rw [h] at hxw
    rw [bind_returns h]
    exact hf a w' hxw
  · rw [h] at hxw
    rw [bind_raises h]
    exact hxw

theorem Keeps.tryCatch {α : Type} {x : EStateM SubprocessError World α}
    {f : SubprocessError → EStateM SubprocessError World α} (hx : Keeps I x) (hf : ∀ e, Keeps I (f e)) :
    Keeps I (tryCatch x f) := by
  intro w hw
  have hxw := hx w hw
  rcases h : x w with ⟨a, w'⟩ | ⟨e, w'⟩
  · rw [h] at hxw
    rw [catch_returns h]
    exact hxw
  · rw [h] at hxw
    rw [catch_raises h]
    exact hf e w' hxw

/-- The commands so far were issued under the port and the configuration that the server has. -/
structure Launches (u : Surroundings) (port : ℤ) (config : Dnp3OutstationConfig) (w : World) : Prop where
  server : w.server.port = port ∧ w.server.config = config
  environment : ∀ c ∈ w.issued, c.environment = (World.init port config).server.composeEnvironment u.environ

variable {port : ℤ} {config : Dnp3OutstationConfig}

theorem Launches.issue {w : World} (h : Launches u port config w) (args : List String) (timeout : ℕ)
    (result : Except SubprocessError Unit) : Launches u port config (w.issue u args timeout result) := by
  obtain ⟨⟨rfl, rfl⟩, henvironment⟩ := h
  refine ⟨⟨rfl, rfl⟩, fun c hc => ?_⟩
  rcases List.mem_append.1 hc with hc | hc
  · exact henvironment c hc
  · rw [List.mem_singleton.1 hc]
    rfl

theorem Launches.setRunning {w : World} (h : Launches u port config w) (running : Bool) :
    Launches u port config (w.setRunning running) := ⟨h.server, h.environment⟩

theorem keeps_runCompose (args : List String) (timeout : ℕ) :
    Keeps (Launches u port config) (runCompose u args timeout) := by
  intro w hw
  rcases hresult : u.results w.issued.length with e | _
  · rw [runCompose_raises hresult]
    exact hw.issue args timeout (.error e)
  · rw [runCompose_returns hresult]
    exact hw.issue args timeout (.ok ())

theorem keeps_takeDown : Keeps (Launches u port config) (takeDown u) := by
  refine (keeps_runCompose _ _).tryCatch fun e => ?_
  cases e with
  | timeoutExpired => exact (keeps_runCompose _ _).bind fun _ => keeps_runCompose _ _
  | calledProcessError => exact fun w hw => hw

/-- A call of `start` or `stop` issues no command for another container. -/
theorem launches_step (call : Call) {w : World} (hw : Launches u port config w) :
    Launches u port config (step u call w).2 := by
  cases hrunning : w.server.running with
  | false =>
    cases call with
    | start =>
      rcases hup : u.results w.issued.length with e | _
      · rw [step, start_raises hrunning hup]
        exact hw.issue _ 60 _
      · rw [step, start_returns hrunning hup]
        exact (hw.issue _ 60 _).setRunning true
    | stop =>
      rw [step, stop_idle hrunning]
      exact hw
  | true =>
    cases call with
    | start =>
      rw [step, start_running hrunning]
      exact hw
    | stop =>
      have htake := keeps_takeDown w hw
      rcases hdown : takeDown u w with ⟨a, w'⟩ | ⟨e, w'⟩
      · have hstop : stop u w = .ok a (w'.setRunning false) := by
          rw [stop_running hrunning]
          exact finally_returns hdown rfl
        rw [hdown] at htake
        rw [step, hstop]
        exact htake.setRunning false
      · have hstop : stop u w = .error e (w'.setRunning false) := by
          rw [stop_running hrunning]
          exact finally_raises hdown rfl
        rw [hdown] at htake
        rw [step, hstop]
        exact htake.setRunning false

end Runs

end Cursus.Dnp3
