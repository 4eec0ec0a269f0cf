/-
`start` and `stop` of `Dnp3OutstationServer` of `cursus/dnp3/outstation_server.py`, called by any number of threads.
While `_running` is set some thread is there to reset it, and once it is reset the outstation is disabled and the
manager shut down, or a thread is about to do so; what breaks this is an `Enable` behind the reset, and exceptions of
the library.
-/
import Cursus.Run.Places

namespace Cursus.Dnp3

open Cursus.Run

/-! ## The server -/

/-- `Dnp3OutstationConfig`. -/
structure Dnp3OutstationConfig where
  databaseSize : ℤ := 10
  eventBufferSize : ℤ := 10
  localAddr : ℤ := 10
  remoteAddr : ℤ := 1

/-- What a `Dnp3OutstationServer` is made with, its flag, whether the outstation is enabled, whether it has ever been,
and whether the manager is shut down. -/
structure Dnp3OutstationServer where
  ip : String
  port : ℤ
  config : Dnp3OutstationConfig
  running : Bool
  enabled : Bool
  used : Bool
  shutDown : Bool

namespace Dnp3OutstationServer

/-- `__init__`. -/
def init (ip : String) (port : ℤ) (config : Option Dnp3OutstationConfig) : Dnp3OutstationServer :=
  ⟨ip, port, config.getD {}, false, false, false, false⟩

/-! ## The program -/

/-- The statements of `start` in front of its `finally`, which calls `stop`. -/
inductive Start
  | check
  | set
  | enable
  | test
  | sleep
  deriving DecidableEq

/-- The statements of `stop`. -/
inductive Stop
  | check
  | reset
  | disable
  | shutdown
  deriving DecidableEq

inductive Place
  | outside
  | start (statement : Start)
  | stop (statement : Stop)
  deriving DecidableEq

/-- A thread calls `start` or `stop`, or executes its next statement; what `pydnp3` raises there, or `KeyboardInterrupt`
in the loop, is left to the surroundings. -/
inductive Input
  | start
  | stop
  | next (raises : Bool)

def start (raises : Bool) : Start → Dnp3OutstationServer → Place × Dnp3OutstationServer
  | .check, s => (if s.running then .outside else .start .set, s)
  | .set, s => (.start .enable, { s with running := true })
  -- the `try` begins behind `Enable`
  | .enable, s => if raises then (.outside, s) else (.start .test, { s with enabled := true, used := true })
  | .test, s => (if raises || !s.running then .stop .check else .start .sleep, s)
  | .sleep, s => (if raises then .stop .check else .start .test, s)

def stop (raises : Bool) : Stop → Dnp3OutstationServer → Place × Dnp3OutstationServer
  | .check, s => (if s.running then .stop .reset else .outside, s)
  | .reset, s => (.stop .disable, { s with running := false })
  | .disable, s => if raises then (.outside, s) else (.stop .shutdown, { s with enabled := false })
  | .shutdown, s => (.outside, if raises then s else { s with shutDown := true })

def program : Program Dnp3OutstationServer Place Input Unit
  | .start, .outside, s => ((), .start .check, s)
  | .stop, .outside, s => ((), .stop .check, s)
  | .next raises, .start statement, s => ((), s.start raises statement)
  | .next raises, .stop statement, s => ((), s.stop raises statement)
  | _, place, s => ((), place, s)

/-- The server, and the threads that call it. -/
abbrev Threads (κ : Type) := Places κ Dnp3OutstationServer Place

def Threads.init {κ : Type} (ip : String) (port : ℤ) (config : Option Dnp3OutstationConfig) : Threads κ :=
  ⟨.init ip port config, fun _ => .outside⟩

variable {κ : Type} [DecidableEq κ] {threads : Threads κ}

def step : Step (Threads κ) (κ × Input) Unit := interleave program

/-! ## The end of the loop -/

/-- The statements from `Enable` on that a thread has left in `start` once `_running` is reset. -/
def left : Place → ℕ
  | .start .enable | .start .sleep => 2
  | .start .test => 1
  | .start .check | .start .set | .outside | .stop _ => 0

/-- The thread executes `Enable`, or a statement of the loop. -/
def inLoop : Input → Place → Bool
  | .next _, .start .enable | .next _, .start .test | .next _, .start .sleep => true
  | _, _ => false

/-- A thread sets `_running`. -/
def Sets (threads : Threads κ) (e : κ × Input) : Prop := threads.place e.1 = .start .set

variable {s : Dnp3OutstationServer}

theorem running_program (hrunning : s.running = false) {place : Place} (hset : place ≠ .start .set) (i : Input) :
    (program i place s).2.2.running = false := by
  rcases i with _ | _ | raises
  · cases place <;> exact hrunning
  · cases place <;> exact hrunning
  · rcases place with _ | statement | statement
    · exact hrunning
    · cases statement with
      | set => exact absurd rfl hset
      | enable => cases raises <;> exact hrunning
      | check | test | sleep => exact hrunning
    · cases statement with
      | reset => rfl
      | check => exact hrunning
      | disable | shutdown => cases raises <;> exact hrunning

/-- Every statement of `start` uses up one that is left. -/
theorem left_program (hrunning : s.running = false) {place : Place} (hset : place ≠ .start .set) (i : Input) :
    left (program i place s).2.1 + (if inLoop i place then 1 else 0) ≤ left place := by
  rcases i with _ | _ | raises
  · cases place <;> simp [program, inLoop, left]
  · cases place <;> simp [program, inLoop, left]
  · rcases place with _ | statement | statement
    · simp [program, inLoop]
    · cases statement with
      | set => exact absurd rfl hset
      | check | test => simp [program, start, inLoop, left, hrunning]
      | enable | sleep => cases raises <;> simp [program, start, inLoop, left]
    · cases statement with
      | check | reset | shutdown => simp [program, stop, inLoop, left, hrunning]
      | disable => cases raises <;> simp [program, stop, inLoop, left]

/-- From a state in which `_running` is reset, and as long as no `start` sets it, a thread executes no more than two
statements from `Enable` on: at most one `sleep`, and the test that ends the loop. -/
theorem start_ends_reset (threads : Threads κ) (hrunning : threads.memory.running = false) (turns : List (κ × Input))
    (hset : ∀ x ∈ transitions step turns threads, ¬ Sets x.before x.event) (k : κ) :
    (transitions step turns threads).countP (Own k inLoop) ≤ 2 := by
  have hcount := countP_own_le (I := fun threads : Threads κ => threads.memory.running = false)
    (C := fun (threads : Threads κ) e => ¬ Sets threads e) k inLoop left
    (fun e _ hrunning hset => running_program hrunning hset e.2)
    (fun i _ hrunning hset => left_program hrunning hset i) turns hrunning hset
  refine hcount.trans ?_
  rcases threads.place k with _ | ⟨_ | _ | _ | _ | _⟩ | _ <;> simp [left]

/-- One thread sleeps in the loop, and another one has reset `_running`. -/
def resetLoop : Threads Bool :=
  final step [(true, .start), (true, .next false), (true, .next false), (true, .next false), (true, .next false),
    (false, .stop), (false, .next false), (false, .next false)] (Threads.init "127.0.0.1" 20000 none)

theorem start_ends_reset_resetLoop :
    (transitions step [(true, .next false), (false, .next false), (true, .next false), (false, .next false),
      (true, .next false)] resetLoop).countP (Own true inLoop) ≤ 2 := by
  have hset : ∀ x ∈ transitions step [(true, .next false), (false, .next false), (true, .next false),
      (false, .next false), (true, .next false)] resetLoop, x.before.place x.event.1 ≠ .start .set := by decide
  exact start_ends_reset resetLoop rfl _ hset true

/-! ## The release -/

/-- From here a thread comes to the reset of `_running`. -/
def Attends (place : Place) : Prop :=
  place = .start .enable ∨ place = .start .test ∨ place = .start .sleep ∨ place = .stop .check ∨ place = .stop .reset

def Disables (place : Place) : Prop := place = .stop .disable

def ShutsDown (place : Place) : Prop := place = .stop .shutdown

/-- While `_running` is set a thread is there that resets it; and once it is reset the outstation is disabled, and the
manager shut down if the outstation has ever been enabled, or a thread is there that does so. -/
def KeptBy (s : Dnp3OutstationServer) (attends disables shutsDown : Prop) : Prop :=
  (s.running = true → attends) ∧
    (s.running = false → (s.enabled = false ∨ disables) ∧ (s.used = true → s.shutDown = true ∨ disables ∨ shutsDown))

def Kept (threads : Threads κ) : Prop :=
  threads.memory.KeptBy (Somewhere Attends threads) (Somewhere Disables threads) (Somewhere ShutsDown threads)

/-- The turn loses the outstation, with what other threads are about to do: `Enable` raises with `_running` set and
nobody left to reset it, or enables it behind the reset with nobody left to disable it; or a call that stops it raises,
and it was the only one to do so. -/
def LosesBy (s : Dnp3OutstationServer) (attends disables shutsDown : Prop) : Input → Place → Prop
  | .next true, .start .enable => s.running = true ∧ ¬ attends
  | .next false, .start .enable => s.running = false ∧ ¬ disables
  | .next true, .stop .disable => s.running = false ∧ ¬ disables ∧
      (s.enabled = true ∨ s.used = true ∧ s.shutDown = false ∧ ¬ shutsDown)
  | .next true, .stop .shutdown => s.running = false ∧ s.used = true ∧ s.shutDown = false ∧ ¬ disables ∧ ¬ shutsDown
  | _, _ => False

def Loses (threads : Threads κ) (e : κ × Input) : Prop :=
  threads.memory.LosesBy (Elsewhere e.1 Attends threads) (Elsewhere e.1 Disables threads)
    (Elsewhere e.1 ShutsDown threads) e.2 (threads.place e.1)

theorem keptBy_program_iff {attends disables shutsDown : Prop} (place : Place)
    (h : s.KeptBy (Attends place ∨ attends) (Disables place ∨ disables) (ShutsDown place ∨ shutsDown)) (i : Input) :
    (program i place s).2.2.KeptBy (Attends (program i place s).2.1 ∨ attends)
      (Disables (program i place s).2.1 ∨ disables) (ShutsDown (program i place s).2.1 ∨ shutsDown) ↔
      ¬ s.LosesBy attends disables shutsDown i place := by
  obtain ⟨ip, port, config, running, enabled, used, shutDown⟩ := s
  rcases i with _ | _ | raises
  · cases place <;> simp_all [program, LosesBy, KeptBy, Attends, Disables, ShutsDown]
  · cases place <;> simp_all [program, LosesBy, KeptBy, Attends, Disables, ShutsDown]
  · rcases place with _ | statement | statement
    · simp_all [program, LosesBy, KeptBy, Attends, Disables, ShutsDown]
    · cases statement <;> cases raises <;> cases running <;>
        simp_all [program, start, LosesBy, KeptBy, Attends, Disables, ShutsDown]
    · cases statement with
      | check | reset => cases running <;> simp_all [program, stop, LosesBy, KeptBy, Attends, Disables, ShutsDown]
      | disable | shutdown =>
        -- only an exception of the last one that disables or shuts down is felt
        by_cases hdisables : disables <;> by_cases hshuts : shutsDown <;> cases raises <;> cases running <;>
          simp_all [program, stop, LosesBy, KeptBy, Attends, Disables, ShutsDown]

/-- The only turns that lose the outstation. -/
theorem kept_step_iff (h : Kept threads) (e : κ × Input) : Kept (step e threads).2 ↔ ¬ Loses threads e := by
  simp only [Kept, somewhere_iff e.1] at h
  simp only [Kept, step, memory_interleave, somewhere_interleave_iff]
  exact keptBy_program_iff _ h e.2

omit [DecidableEq κ] in
/-- Between calls, an outstation that is kept is released. -/
theorem released_of_kept (h : Kept threads) (houtside : ∀ k, threads.place k = .outside) :
    threads.memory.running = false ∧ threads.memory.enabled = false ∧
      (threads.memory.used = true → threads.memory.shutDown = true) := by
  have hnobody : ∀ Q : Place → Prop, ¬ Q .outside → ¬ Somewhere Q threads := by
    rintro Q hQ ⟨k, hk⟩
    rw [houtside k] at hk
    exact hQ hk
  have hattends := hnobody Attends (by simp [Attends])
  have hdisables := hnobody Disables (by simp [Disables])
  have hshutsDown := hnobody ShutsDown (by simp [ShutsDown])
  have hrunning : threads.memory.running = false := Bool.eq_false_of_not_eq_true (mt h.1 hattends)
  obtain ⟨henabled, hused⟩ := h.2 hrunning
  exact ⟨hrunning, henabled.resolve_right hdisables,
    fun h => (hused h).resolve_right (not_or_intro hdisables hshutsDown)⟩

section Runs

variable (ip : String) (port : ℤ) (config : Option Dnp3OutstationConfig)

omit [DecidableEq κ] in
theorem kept_init : Kept (Threads.init ip port config : Threads κ) := ⟨nofun, fun _ => ⟨.inl rfl, nofun⟩⟩

/-- In every state of a run the outstation is kept iff no turn of the run loses it. -/
theorem kept_run_iff (turns : List (κ × Input)) :
    (∀ before, before <+: turns → Kept (final step before (Threads.init ip port config : Threads κ))) ↔
      ∀ x ∈ transitions step turns (Threads.init ip port config : Threads κ), ¬ Loses x.before x.event :=
  everywhere_iff (J := fun _ => True) (C := fun (threads : Threads κ) e => ¬ Loses threads e) trivial
    (kept_init ip port config) (fun _ _ _ => trivial) (fun e _ _ h => kept_step_iff h e) turns

end Runs

end Dnp3OutstationServer

end Cursus.Dnp3
