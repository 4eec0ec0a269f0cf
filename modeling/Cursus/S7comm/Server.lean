/-
`start` and `stop` of `S7commServer` of `cursus/s7comm/server.py`, called by any number of threads. A stop ends the
event loop of every `start` within two statements, unless a `start` clears the event behind it; and it releases the
socket unless a `start` opens it behind it.
-/
import Cursus.Run.Places

namespace Cursus.S7comm

open Cursus.Run

/-! ## The program -/

/-- The statements of `start`: the clear of the event, `start_to`, the test of the loop and `pick_event`. -/
inductive Start
  | clear
  | startTo
  | test
  | pick
  deriving DecidableEq

/-- The statements of `stop`. -/
inductive Stop
  | set
  | stop
  deriving DecidableEq

inductive Place
  | outside
  | start (statement : Start)
  | stop (statement : Stop)
  deriving DecidableEq

/-- A thread calls `start` or `stop`, or executes its next statement; what `snap7` raises there is left to the
surroundings. -/
inductive Input
  | start
  | stop
  | next (raises : Bool)

/-- The event, and whether the snap7 server listens. `stopReturned` is what the callers know: a call of `stop` has
returned since `start` was called last. -/
structure S7commServer where
  stopped : Bool
  listening : Bool
  stopReturned : Bool

namespace S7commServer

def start (raises : Bool) : Start → S7commServer → Place × S7commServer
  | .clear, s => (.start .startTo, { s with stopped := false })
  | .startTo, s => if raises then (.outside, s) else (.start .test, { s with listening := true })
  | .test, s => (if s.stopped then .outside else .start .pick, s)
  -- an `Exception` is logged, and anything else ends the loop
  | .pick, s => (if raises then .outside else .start .test, s)

def stop (raises : Bool) : Stop → S7commServer → Place × S7commServer
  | .set, s => (.stop .stop, { s with stopped := true })
  | .stop, s => (.outside, if raises then s else { s with listening := false, stopReturned := true })

def program : Program S7commServer Place Input Unit
  | .start, .outside, s => ((), .start .clear, { s with stopReturned := false })
  | .stop, .outside, s => ((), .stop .set, s)
  | .next raises, .start statement, s => ((), s.start raises statement)
  | .next raises, .stop statement, s => ((), s.stop raises statement)
  | _, place, s => ((), place, s)

/-- The server, and the threads that call it. -/
abbrev Threads (κ : Type) := Places κ S7commServer Place

def init {κ : Type} : Threads κ := ⟨⟨false, false, false⟩, fun _ => .outside⟩

variable {κ : Type} [DecidableEq κ] {s : S7commServer} {threads : Threads κ} {k : κ}

def step : Step (Threads κ) (κ × Input) Unit := interleave program

/-! ## The end of the loop -/

/-- The statements that a thread has left in the loop once the event is set. -/
def left : Place → ℕ
  | .start .startTo | .start .pick => 2
  | .start .test => 1
  | .start .clear | .outside | .stop _ => 0

/-- The thread executes a statement of `start`. -/
def inStart : Input → Place → Bool
  | .next _, .start _ => true
  | _, _ => false

/-- A thread clears the event. -/
def Clears (threads : Threads κ) (e : κ × Input) : Prop := threads.place e.1 = .start .clear

theorem stopped_program (hstopped : s.stopped = true) {place : Place} (hclear : place ≠ .start .clear) (i : Input) :
    (program i place s).2.2.stopped = true := by
  rcases i with _ | _ | raises
  · cases place <;> exact hstopped
  · cases place <;> exact hstopped
  · rcases place with _ | statement | statement
    · exact hstopped
    · cases statement with
      | clear => exact absurd rfl hclear
      | startTo => cases raises <;> exact hstopped
      | test | pick => exact hstopped
    · cases statement with
      | set => rfl
      | stop => cases raises <;> exact hstopped

/-- Every statement of a loop uses up one that is left. -/
theorem left_program (hstopped : s.stopped = true) {place : Place} (hclear : place ≠ .start .clear) (i : Input) :
    left (program i place s).2.1 + (if inStart i place then 1 else 0) ≤ left place := by
  rcases i with _ | _ | raises
  · cases place <;> simp [program, inStart, left]
  · cases place <;> simp [program, inStart, left]
  · rcases place with _ | statement | statement
    · simp [program, inStart]
    · cases statement with
      | clear => exact absurd rfl hclear
      | test => simp [program, start, inStart, left, hstopped]
      | startTo | pick => cases raises <;> simp [program, start, inStart, left]
    · cases statement <;> simp [program, stop, inStart, left]

/-- From a state in which the event is set, and as long as no `start` clears it, a thread executes no more than two
statements of `start`: at most one `pick_event`, and the test that ends the loop. -/
theorem start_ends (threads : Threads κ) (hstopped : threads.memory.stopped = true) (turns : List (κ × Input))
    (hclear : ∀ x ∈ transitions step turns threads, ¬ Clears x.before x.event) (k : κ) :
    (transitions step turns threads).countP (Own k inStart) ≤ 2 := by
  have hcount := countP_own_le (I := fun threads : Threads κ => threads.memory.stopped = true)
    (C := fun (threads : Threads κ) e => ¬ Clears threads e) k inStart left
    (fun e _ hstopped hclear => stopped_program hstopped hclear e.2)
    (fun i _ hstopped hclear => left_program hstopped hclear i) turns hstopped hclear
  refine hcount.trans ?_
  rcases threads.place k with _ | ⟨_ | _ | _ | _⟩ | _ <;> simp [left]

/-- One thread is in the loop, and another one stops it. -/
def stoppedLoop : Threads Bool :=
  final step [(true, .start), (true, .next false), (true, .next false), (true, .next false), (false, .stop),
    (false, .next false)] init

theorem start_ends_stoppedLoop :
    (transitions step [(true, .next false), (false, .next false), (true, .next false), (true, .next false)]
      stoppedLoop).countP (Own true inStart) ≤ 2 := by
  have hclear : ∀ x ∈ transitions step [(true, .next false), (false, .next false), (true, .next false),
      (true, .next false)] stoppedLoop, x.before.place x.event.1 ≠ .start .clear := by decide
  exact start_ends stoppedLoop rfl _ hclear true

/-! ## The release of the socket -/

/-- Some thread is in `start`. -/
def Starting (threads : Threads κ) : Prop := Somewhere (fun place : Place => ∃ statement, place = .start statement) threads

/-- When `stop` has returned since the last call of `start`, the server does not listen, and every loop that is left
ends. -/
def Released (threads : Threads κ) : Prop :=
  threads.memory.stopReturned = true →
    threads.memory.listening = false ∧ (Starting threads → threads.memory.stopped = true)

/-- The turn undoes a stop: behind its return a `start` clears the event or opens the socket, or it returns when a
`start` has cleared the event that it has set. -/
inductive Undoes (threads : Threads κ) : κ × Input → Prop
  | clears {k : κ} {raises : Bool} : threads.memory.stopReturned = true → threads.place k = .start .clear →
      Undoes threads (k, .next raises)
  | opens {k : κ} : threads.memory.stopReturned = true → threads.place k = .start .startTo →
      Undoes threads (k, .next false)
  | returns {k : κ} (k' : κ) (statement : Start) : threads.place k = .stop .stop →
      threads.place k' = .start statement → threads.memory.stopped = false → Undoes threads (k, .next false)

/-- A thread that does not go on in `start` leaves no more threads there than there were. -/
theorem starting_step {e : κ × Input} (h : Starting (step e threads).2)
    (hplace : ∀ statement, (program e.2 (threads.place e.1) threads.memory).2.1 ≠ .start statement) :
    Starting threads := by
  rcases somewhere_interleave_iff.1 h with ⟨statement, hstatement⟩ | ⟨k, -, hk⟩
  · exact absurd hstatement (hplace statement)
  · exact ⟨k, hk⟩

theorem released_start_iff (h : Released threads) {statement : Start} (hk : threads.place k = .start statement)
    (raises : Bool) : Released (step (k, .next raises) threads).2 ↔ ¬ Undoes threads (k, .next raises) := by
  have hmemory : (step (k, .next raises) threads).2.memory = (threads.memory.start raises statement).2 := by
    rw [step, memory_interleave, hk]
    rfl
  cases hreturned : threads.memory.stopReturned with
  | false =>
    refine iff_of_true (fun hafter => ?_) ?_
    · rw [hmemory] at hafter
      have hsame : (threads.memory.start raises statement).2.stopReturned = threads.memory.stopReturned := by
        cases statement with
        | startTo => cases raises <;> rfl
        | clear | test | pick => rfl
      cases hreturned.symm.trans (hsame.symm.trans hafter)
    · rintro (⟨htrue, -⟩ | ⟨htrue, -⟩ | ⟨-, -, hplace, -⟩)
      · cases hreturned.symm.trans htrue
      · cases hreturned.symm.trans htrue
      · cases hk.symm.trans hplace
  | true =>
    obtain ⟨hlistening, hstopped⟩ := h hreturned
    have hstopped : threads.memory.stopped = true := hstopped ⟨k, statement, hk⟩
    have hkept : (threads.memory.start raises statement).2 = threads.memory → Released (step (k, .next raises) threads).2 := by
      intro hsame _
      rw [hmemory, hsame]
      exact ⟨hlistening, fun _ => hstopped⟩
    cases statement with
    | clear =>
      refine iff_of_false (fun hreleased => ?_) (not_not_intro (.clears hreturned hk))
      have hstarting : Starting (step (k, .next raises) threads).2 :=
        somewhere_interleave_iff.2 (.inl ⟨.startTo, by rw [hk]; rfl⟩)
      have hafter := (hreleased (by rw [hmemory]; exact hreturned)).2 hstarting
      rw [hmemory] at hafter
      cases hafter
    | startTo =>
      cases raises with
      | true =>
        refine iff_of_true (hkept rfl) ?_
        rintro (⟨-, hplace⟩ | ⟨⟩)
        cases hk.symm.trans hplace
      | false =>
        refine iff_of_false (fun hreleased => ?_) (not_not_intro (.opens hreturned hk))
        have hafter := (hreleased (by rw [hmemory]; exact hreturned)).1
        rw [hmemory] at hafter
        cases hafter
    | test | pick =>
      refine iff_of_true (hkept rfl) ?_
      rintro (⟨-, hplace⟩ | ⟨-, hplace⟩ | ⟨-, -, hplace, -⟩) <;> cases hk.symm.trans hplace

theorem released_stop_iff (h : Released threads) {statement : Stop} (hk : threads.place k = .stop statement)
    (raises : Bool) : Released (step (k, .next raises) threads).2 ↔ ¬ Undoes threads (k, .next raises) := by
  have hmemory : (step (k, .next raises) threads).2.memory = (threads.memory.stop raises statement).2 := by
    rw [step, memory_interleave, hk]
    rfl
  have hstarting : Starting (step (k, .next raises) threads).2 → Starting threads := fun hafter =>
    starting_step hafter (by rw [hk]; cases statement <;> nofun)
  cases statement with
  | set =>
    refine iff_of_true (fun hreturned => ?_) ?_
    · rw [hmemory] at hreturned ⊢
      exact ⟨(h hreturned).1, fun _ => rfl⟩
    · rintro (⟨-, hplace⟩ | ⟨-, hplace⟩ | ⟨-, -, hplace, -⟩) <;> cases hk.symm.trans hplace
  | stop =>
    cases raises with
    | true =>
      refine iff_of_true (fun hreturned => ?_) ?_
      · rw [hmemory] at hreturned ⊢
        exact ⟨(h hreturned).1, fun hafter => (h hreturned).2 (hstarting hafter)⟩
      · rintro ⟨-, hplace⟩
        cases hk.symm.trans hplace
    | false =>
      constructor
      · rintro hreleased (⟨-, hplace⟩ | ⟨-, hplace⟩ | ⟨k', statement, -, hk', hstopped⟩)
        · cases hk.symm.trans hplace
        · cases hk.symm.trans hplace
        · have hother : k' ≠ k := by
            rintro rfl
            cases hk.symm.trans hk'
          have hafter := (hreleased (by rw [hmemory]; rfl)).2
            (somewhere_interleave_iff.2 (.inr ⟨k', hother, statement, hk'⟩))
          rw [hmemory] at hafter
          cases hstopped.symm.trans hafter
      · intro hundoes _
        rw [hmemory]
        refine ⟨rfl, fun hafter => ?_⟩
        obtain ⟨k', statement, hk'⟩ := hstarting hafter
        by_contra hstopped
        exact hundoes (.returns k' statement hk hk' (Bool.eq_false_of_not_eq_true hstopped))

/-- The only turns behind which a stop is not kept. -/
theorem released_step_iff (h : Released threads) (e : κ × Input) : Released (step e threads).2 ↔ ¬ Undoes threads e := by
  obtain ⟨k, i⟩ := e
  have hstays : (program i (threads.place k) threads.memory).2 = (threads.place k, threads.memory) →
      Released (step (k, i) threads).2 := by
    intro hsame
    rwa [step, interleave_of_stays hsame]
  cases hk : threads.place k with
  | outside =>
    have hundoes : ¬ Undoes threads (k, i) := by
      rintro (⟨-, hplace⟩ | ⟨-, hplace⟩ | ⟨-, -, hplace, -⟩) <;> cases hk.symm.trans hplace
    refine iff_of_true ?_ hundoes
    cases i with
    | start =>
      intro hreturned
      rw [step, memory_interleave, hk] at hreturned
      cases hreturned
    | stop =>
      have hmemory : (step (k, .stop) threads).2.memory = threads.memory := by
        rw [step, memory_interleave, hk]
        rfl
      intro hreturned
      rw [hmemory] at hreturned ⊢
      refine ⟨(h hreturned).1, fun hstarting => (h hreturned).2 (starting_step hstarting ?_)⟩
      rw [hk]
      nofun
    | next raises => exact hstays (by rw [hk]; rfl)
  | start statement =>
    cases i with
    | next raises => exact released_start_iff h hk raises
    | start | stop => exact iff_of_true (hstays (by rw [hk]; rfl)) nofun
  | stop statement =>
    cases i with
    | next raises => exact released_stop_iff h hk raises
    | start | stop => exact iff_of_true (hstays (by rw [hk]; rfl)) nofun

omit [DecidableEq κ] in
theorem released_init : Released (init : Threads κ) := by
  rintro ⟨⟩

/-- In every state of a run stops are kept iff no turn of the run undoes one. -/
theorem released_run_iff (turns : List (κ × Input)) :
    (∀ before, before <+: turns → Released (final step before (init : Threads κ))) ↔
      ∀ x ∈ transitions step turns (init : Threads κ), ¬ Undoes x.before x.event :=
  everywhere_iff (J := fun _ => True) (C := fun (threads : Threads κ) e => ¬ Undoes threads e) trivial released_init
    (fun _ _ _ => trivial) (fun e _ _ h => released_step_iff h e) turns

end S7commServer

end Cursus.S7comm
