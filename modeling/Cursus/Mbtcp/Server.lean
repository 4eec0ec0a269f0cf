/-
`start` and `stop` of `MbtcpServer` of `cursus/mbtcp/server.py`, in any number of threads. `stop` hands the shutdown of
the server to the event loop of `start`. As long as no `start` is called while another one is under way, a stop that
finds a server ends it, and raises only when `start` ends meanwhile; and `start` leaves nothing behind.
-/
import Cursus.Run.Places

namespace Cursus.Mbtcp

open Cursus.Run

/-! ## The program -/

/-- The statements of `start`, from `loadClose` on its `finally`. Where a statement reads `_loop` before it does
something with the loop, the reading is a statement of its own. -/
inductive Start
  | newLoop
  | loadCreate
  | runCreate (loop : ℕ)
  | create (loop : ℕ)
  | publish (server : ℕ)
  | loadServe (server : ℕ)
  | runServe (server loop : ℕ)
  | serve (server loop : ℕ)
  | loadClose
  | close (loop : ℕ)
  | resetServer
  | resetLoop
  deriving DecidableEq

/-- The statements of `stop`: the two tests, the call of `shutdown`, the reading of the loop for the server that is to
shut down, the call of `call_soon_threadsafe` on it, and the wait for the future. -/
inductive Stop
  | testServer
  | testLoop
  | shutdown
  | readLoop (server : ℕ)
  | schedule (server loop : ℕ)
  | result (future : ℕ)
  deriving DecidableEq

inductive Place
  | outside
  | start (statement : Start)
  | stop (statement : Stop)
  deriving DecidableEq

/-- A thread calls `start` or `stop`, or executes its next statement, which raises where the libraries that `start`
calls may raise, and times out where `stop` waits for the result; or the event loop that it runs executes a shutdown that
it has been handed. -/
inductive Input
  | start
  | stop
  | next (raises : Bool)
  | execute (future : ℕ)
  deriving DecidableEq

/-- How a call of `stop` ends. -/
inductive Answer
  | returned
  | raised
  | timedOut
  deriving DecidableEq

/-- The fields `_loop` and `_server`. `made` and `created` count the event loops and the servers; `running` are the loops
that a thread runs, `closed` those that are closed, and `ended` the servers whose `serve_forever` has been left or could
not be entered. A future is the place of a shutdown in `shutdowns`, which tells the loop that it has been handed to and
the server it is about, and `done` are those that have been executed. -/
structure MbtcpServer where
  loop : Option ℕ
  server : Option ℕ
  made : ℕ
  created : ℕ
  running : List ℕ
  closed : List ℕ
  ended : List ℕ
  shutdowns : List (ℕ × ℕ)
  done : List ℕ

namespace MbtcpServer

def start (raises : Bool) : Start → MbtcpServer → Place × MbtcpServer
  | .newLoop, s =>
    if raises then (.outside, s) else (.start .loadCreate, { s with loop := some s.made, made := s.made + 1 })
  | .loadCreate, s =>
    match s.loop with
    | some loop => (.start (.runCreate loop), s)
    -- `None` has no `run_until_complete`
    | none => (.start .loadClose, s)
  | .runCreate loop, s =>
    -- `run_until_complete` raises on a loop that is closed or runs in another thread
    if loop ∈ s.closed ∨ loop ∈ s.running then (.start .loadClose, s)
    else (.start (.create loop), { s with running := loop :: s.running })
  | .create loop, s =>
    if raises then (.start .loadClose, { s with running := s.running.erase loop })
    else (.start (.publish s.created), { s with running := s.running.erase loop, created := s.created + 1 })
  | .publish server, s => (.start (.loadServe server), { s with server := some server })
  | .loadServe server, s =>
    match s.loop with
    | some loop => (.start (.runServe server loop), s)
    | none => (.start .loadClose, { s with ended := server :: s.ended })
  | .runServe server loop, s =>
    match s.server with
    -- what is served is what `_server` holds now
    | some served =>
      if loop ∈ s.closed ∨ loop ∈ s.running then (.start .loadClose, { s with ended := server :: s.ended })
      else (.start (.serve served loop), { s with running := loop :: s.running })
    | none => (.start .loadClose, { s with ended := server :: s.ended })
  -- `serve_forever` may end at any time, with an exception or without
  | .serve server loop, s =>
    (.start .loadClose, { s with running := s.running.erase loop, ended := server :: s.ended })
  | .loadClose, s =>
    match s.loop with
    | some loop => (.start (.close loop), s)
    -- `None` has no `close`, and the rest of the `finally` is left out
    | none => (.outside, s)
  | .close loop, s =>
    -- `close` raises on a loop that runs
    if loop ∈ s.running then (.outside, s) else (.start .resetServer, { s with closed := loop :: s.closed })
  | .resetServer, s => (.start .resetLoop, { s with server := none })
  | .resetLoop, s => (.outside, { s with loop := none })

/-- A loop that a thread runs executes a shutdown that it has been handed. -/
def execute (loop future : ℕ) (s : MbtcpServer) : MbtcpServer :=
  if s.shutdowns[future]?.map (·.1) = some loop then { s with done := future :: s.done } else s

def stop (timeout : Bool) : Stop → MbtcpServer → Option Answer × Place × MbtcpServer
  | .testServer, s => if s.server = none then (some .returned, .outside, s) else (none, .stop .testLoop, s)
  | .testLoop, s => if s.loop = none then (some .returned, .outside, s) else (none, .stop .shutdown, s)
  | .shutdown, s =>
    match s.server with
    | some server => (none, .stop (.readLoop server), s)
    | none => (some .raised, .outside, s)
  | .readLoop server, s =>
    match s.loop with
    | some loop => (none, .stop (.schedule server loop), s)
    | none => (some .raised, .outside, s)
  | .schedule server loop, s =>
    if loop ∈ s.closed then (some .raised, .outside, s)
    else (none, .stop (.result s.shutdowns.length), { s with shutdowns := s.shutdowns ++ [(loop, server)] })
  | .result future, s =>
    if future ∈ s.done then (some .returned, .outside, s)
    else if timeout then (some .timedOut, .outside, s)
    else (none, .stop (.result future), s)

def program : Program MbtcpServer Place Input (Option Answer)
  | .start, .outside, s => (none, .start .newLoop, s)
  | .stop, .outside, s => (none, .stop .testServer, s)
  | .next raises, .start statement, s => (none, s.start raises statement)
  | .execute future, .start (.create loop), s => (none, .start (.create loop), s.execute loop future)
  | .execute future, .start (.serve server loop), s => (none, .start (.serve server loop), s.execute loop future)
  | .next timeout, .stop statement, s => s.stop timeout statement
  | _, place, s => (none, place, s)

/-- The server, and the threads that call it. -/
abbrev Threads (κ : Type) := Places κ MbtcpServer Place

def init {κ : Type} : Threads κ := ⟨⟨none, none, 0, 0, [], [], [], [], []⟩, fun _ => .outside⟩

variable {κ : Type} [DecidableEq κ] {s : MbtcpServer} {threads : Threads κ} {k : κ} {v : ℕ}

def step : Step (Threads κ) (κ × Input) (Option Answer) := interleave program

/-! ## One start at a time -/

def InStart : Place → Prop
  | .start _ => True
  | .outside | .stop _ => False

instance : DecidablePred InStart
  | .start _ => .isTrue trivial
  | .outside | .stop _ => .isFalse id

/-- `start` is not called while a call of it is under way. -/
def Alone (threads : Threads κ) (e : κ × Input) : Prop :=
  e.2 = .start → threads.place e.1 = .outside → ¬ Somewhere InStart threads

instance [Fintype κ] (e : κ × Input) : Decidable (Alone threads e) :=
  inferInstanceAs (Decidable (_ → _ → ¬ _))

/-! ## The outline -/

/-- The fields between two calls of `start`. -/
structure Idle (s : MbtcpServer) : Prop where
  server : s.server = none
  loop : s.loop = none
  running : s.running = []
  closed : ∀ loop < s.made, loop ∈ s.closed

/-- The loop is the last one, and open. -/
structure Open (s : MbtcpServer) (loop : ℕ) : Prop where
  loop_eq : s.loop = some loop
  made_eq : s.made = loop + 1
  notMem_closed : loop ∉ s.closed
  closed : ∀ loop' < loop, loop' ∈ s.closed

/-- What holds of the fields throughout: a server is there together with an open loop until it has ended. -/
structure Fields (s : MbtcpServer) : Prop where
  closed_lt : ∀ loop ∈ s.closed, loop < s.made
  ended_lt : ∀ server ∈ s.ended, server < s.created
  server_lt : ∀ server, s.server = some server → server < s.created
  server : ∀ server, s.server = some server → server ∉ s.ended → ∃ loop, s.loop = some loop ∧ loop ∉ s.closed

/-- A server that is there has ended. -/
def Over (s : MbtcpServer) : Prop := ∀ server, s.server = some server → server ∈ s.ended

/-- Where `start` is with the fields. -/
def At (s : MbtcpServer) : Place → Prop
  | .start .newLoop => s.Idle
  | .start .loadCreate => s.server = none ∧ s.running = [] ∧ ∃ loop, s.Open loop
  | .start (.runCreate loop) => s.server = none ∧ s.running = [] ∧ s.Open loop
  | .start (.create loop) => s.server = none ∧ s.running = [loop] ∧ s.Open loop
  | .start (.publish server) => s.server = none ∧ s.running = [] ∧ (server < s.created ∧ server ∉ s.ended) ∧
      ∃ loop, s.Open loop
  | .start (.loadServe server) => s.server = some server ∧ s.running = [] ∧ server ∉ s.ended ∧ ∃ loop, s.Open loop
  | .start (.runServe server loop) => s.server = some server ∧ s.running = [] ∧ server ∉ s.ended ∧ s.Open loop
  | .start (.serve server loop) => s.server = some server ∧ s.running = [loop] ∧ server ∉ s.ended ∧ s.Open loop
  | .start .loadClose => s.Over ∧ s.running = [] ∧ ∃ loop, s.Open loop
  | .start (.close loop) => s.Over ∧ s.running = [] ∧ s.Open loop
  | .start .resetServer => s.Over ∧ s.running = [] ∧ ∀ loop < s.made, loop ∈ s.closed
  | .start .resetLoop => s.server = none ∧ s.running = [] ∧ ∀ loop < s.made, loop ∈ s.closed
  | .outside | .stop _ => True

/-- No two threads are in `start`. -/
def Apart (place place' : Place) : Prop := InStart place → ¬ InStart place'

/-- Between two calls of `start` the fields are empty. -/
structure Sound (threads : Threads κ) : Prop where
  outlined : Outlined Fields At Apart threads
  idle : ¬ Somewhere InStart threads → threads.memory.Idle

/-- A turn that is about the shutdowns only does not matter to `start`. -/
structure Same (s s' : MbtcpServer) : Prop where
  loop : s'.loop = s.loop
  server : s'.server = s.server
  made : s'.made = s.made
  created : s'.created = s.created
  running : s'.running = s.running
  closed : s'.closed = s.closed
  ended : s'.ended = s.ended

theorem Same.refl (s : MbtcpServer) : s.Same s := ⟨rfl, rfl, rfl, rfl, rfl, rfl, rfl⟩

section Same

variable {s' : MbtcpServer}

theorem Idle.same (h : s.Idle) (hs : s.Same s') : s'.Idle := by
  obtain ⟨hloop, hserver, hmade, -, hrunning, hclosed, -⟩ := hs
  exact ⟨hserver ▸ h.server, hloop ▸ h.loop, hrunning ▸ h.running, by rw [hmade, hclosed]; exact h.closed⟩

theorem Open.congr {loop : ℕ} (h : s.Open loop) (hloop : s'.loop = s.loop) (hmade : s'.made = s.made)
    (hclosed : s'.closed = s.closed) : s'.Open loop :=
  ⟨hloop ▸ h.loop_eq, hmade ▸ h.made_eq, hclosed ▸ h.notMem_closed, by rw [hclosed]; exact h.closed⟩

theorem Open.same {loop : ℕ} (h : s.Open loop) (hs : s.Same s') : s'.Open loop := h.congr hs.loop hs.made hs.closed

theorem Fields.same (h : s.Fields) (hs : s.Same s') : s'.Fields := by
  obtain ⟨hloop, hserver, hmade, hcreated, -, hclosed, hended⟩ := hs
  refine ⟨?_, ?_, ?_, ?_⟩
  · rw [hclosed, hmade]
    exact h.closed_lt
  · rw [hended, hcreated]
    exact h.ended_lt
  · rw [hserver, hcreated]
    exact h.server_lt
  · rw [hserver, hended, hloop, hclosed]
    exact h.server

theorem Over.same (h : s.Over) (hs : s.Same s') : s'.Over := by
  rw [Over, hs.server, hs.ended]
  exact h

theorem at_same {place : Place} (h : s.At place) (hs : s.Same s') : s'.At place := by
  have hopen : (∃ loop, s.Open loop) → ∃ loop, s'.Open loop := fun ⟨loop, hloop⟩ => ⟨loop, hloop.same hs⟩
  rcases place with _ | statement | _
  · trivial
  · cases statement with
    | newLoop => exact Idle.same h hs
    | loadCreate => exact ⟨hs.server.trans h.1, hs.running.trans h.2.1, hopen h.2.2⟩
    | runCreate loop | create loop => exact ⟨hs.server.trans h.1, hs.running.trans h.2.1, h.2.2.same hs⟩
    | publish server =>
      obtain ⟨hserver, hrunning, hfresh, hloop⟩ := h
      exact ⟨hs.server.trans hserver, hs.running.trans hrunning, by rwa [hs.created, hs.ended], hopen hloop⟩
    | loadServe server =>
      obtain ⟨hserver, hrunning, hfresh, hloop⟩ := h
      exact ⟨hs.server.trans hserver, hs.running.trans hrunning, by rwa [hs.ended], hopen hloop⟩
    | runServe server loop | serve server loop =>
      obtain ⟨hserver, hrunning, hfresh, hloop⟩ := h
      exact ⟨hs.server.trans hserver, hs.running.trans hrunning, by rwa [hs.ended], hloop.same hs⟩
    | loadClose => exact ⟨h.1.same hs, hs.running.trans h.2.1, hopen h.2.2⟩
    | close loop => exact ⟨h.1.same hs, hs.running.trans h.2.1, h.2.2.same hs⟩
    | resetServer => exact ⟨h.1.same hs, hs.running.trans h.2.1, by rw [hs.made, hs.closed]; exact h.2.2⟩
    | resetLoop => exact ⟨hs.server.trans h.1, hs.running.trans h.2.1, by rw [hs.made, hs.closed]; exact h.2.2⟩
  · trivial

end Same

theorem same_execute (loop future : ℕ) (s : MbtcpServer) : s.Same (s.execute loop future) := by
  rw [execute]
  split <;> exact ⟨rfl, rfl, rfl, rfl, rfl, rfl, rfl⟩

/-- A turn outside `start` is about the shutdowns only. -/
theorem same_stop (timeout : Bool) (statement : Stop) (s : MbtcpServer) :
    s.Same (s.stop timeout statement).2.2 ∧ ¬ InStart (s.stop timeout statement).2.1 := by
  cases statement with
  | testServer | testLoop | shutdown | readLoop _ =>
    simp only [stop]
    split <;> exact ⟨Same.refl s, id⟩
  | schedule _ _ =>
    simp only [stop]
    split
    · exact ⟨Same.refl s, id⟩
    · exact ⟨⟨rfl, rfl, rfl, rfl, rfl, rfl, rfl⟩, id⟩
  | result future =>
    simp only [stop]
    split
    · exact ⟨Same.refl s, id⟩
    · split <;> exact ⟨Same.refl s, id⟩

/-- A turn that executes no statement of `start` is about the shutdowns only, and enters `start` only for a call. -/
theorem same_program (i : Input) (place : Place) (s : MbtcpServer)
    (h : ∀ raises statement, i = .next raises → place ≠ .start statement) :
    s.Same (program i place s).2.2 ∧
      ((program i place s).2.1 = place ∨ ¬ InStart (program i place s).2.1 ∧ ¬ InStart place ∨
        i = .start ∧ place = .outside) := by
  rcases i with _ | _ | raises | future
  · cases place with
    | outside => exact ⟨Same.refl s, .inr (.inr ⟨rfl, rfl⟩)⟩
    | start statement | stop statement => exact ⟨Same.refl s, .inl rfl⟩
  · cases place with
    | outside => exact ⟨Same.refl s, .inr (.inl ⟨id, id⟩)⟩
    | start statement | stop statement => exact ⟨Same.refl s, .inl rfl⟩
  · cases place with
    | outside => exact ⟨Same.refl s, .inl rfl⟩
    | start statement => exact absurd rfl (h raises statement rfl)
    | stop statement =>
      obtain ⟨hsame, hplace⟩ := same_stop raises statement s
      exact ⟨hsame, .inr (.inl ⟨hplace, id⟩)⟩
  · rcases place with _ | statement | statement
    · exact ⟨Same.refl s, .inl rfl⟩
    · cases statement with
      | create loop => exact ⟨same_execute loop future s, .inl rfl⟩
      | serve server loop => exact ⟨same_execute loop future s, .inl rfl⟩
      | newLoop | loadCreate | runCreate _ | publish _ | loadServe _ | runServe _ _ | loadClose | close _ | resetServer
      | resetLoop => exact ⟨Same.refl s, .inl rfl⟩
    · exact ⟨Same.refl s, .inl rfl⟩

/-- Each statement of `start` leads to the next one with its fields, and out of `start` with none. -/
theorem start_own (raises : Bool) (statement : Start) (h : s.Fields) (hat : s.At (.start statement)) :
    (s.start raises statement).2.Fields ∧ (s.start raises statement).2.At (s.start raises statement).1 ∧
      (¬ InStart (s.start raises statement).1 → (s.start raises statement).2.Idle) := by
  have hinside : ∀ {place : Place} {P : Prop}, InStart place → ¬ InStart place → P := fun h h' => absurd h h'
  obtain ⟨hclosed, hended, hlt, hserver⟩ := h
  -- a server whose serving is over is the one that is there
  have hover : ∀ server, s.server = some server → ∀ server', s.server = some server' → server' ∈ server :: s.ended := by
    intro server hs server' hs'
    obtain rfl := Option.some.inj (hs.symm.trans hs')
    exact List.mem_cons_self
  have hcons : ∀ server, s.server = some server → ∀ server' ∈ server :: s.ended, server' < s.created := fun server hs =>
    List.forall_mem_cons.2 ⟨hlt server hs, hended⟩
  cases statement with
  | newLoop =>
    cases raises with
    | true => exact ⟨⟨hclosed, hended, hlt, hserver⟩, trivial, fun _ => hat⟩
    | false =>
      obtain ⟨hnone, -, hrunning, hall⟩ := hat
      have hopen : s.made ∉ s.closed := fun hmem => Nat.lt_irrefl _ (hclosed _ hmem)
      refine ⟨⟨fun loop hloop => Nat.lt_succ_of_lt (hclosed loop hloop), hended, hlt, ?_⟩,
        ⟨hnone, hrunning, s.made, rfl, rfl, hopen, hall⟩, hinside trivial⟩
      simp [start, hnone]
  | loadCreate =>
    obtain ⟨hnone, hrunning, loop, hloop⟩ := hat
    simp only [start, hloop.loop_eq]
    exact ⟨⟨hclosed, hended, hlt, hserver⟩, ⟨hnone, hrunning, hloop⟩, hinside trivial⟩
  | runCreate loop =>
    obtain ⟨hnone, hrunning, hloop⟩ := hat
    have hfree : ¬ (loop ∈ s.closed ∨ loop ∈ s.running) := by simp [hrunning, hloop.notMem_closed]
    rw [start, if_neg hfree]
    exact ⟨⟨hclosed, hended, hlt, hserver⟩, ⟨hnone, by simp [hrunning], hloop.congr rfl rfl rfl⟩,
      hinside trivial⟩
  | create loop =>
    obtain ⟨hnone, hrunning, hloop⟩ := hat
    have hopen : Open { s with running := s.running.erase loop } loop := hloop.congr rfl rfl rfl
    cases raises with
    | true =>
      refine ⟨⟨hclosed, hended, hlt, hserver⟩, ⟨?_, by simp [start, hrunning], loop, hopen⟩, hinside trivial⟩
      simp [start, Over, hnone]
    | false =>
      refine ⟨⟨hclosed, fun server hs => Nat.lt_succ_of_lt (hended server hs),
        fun server hs => Nat.lt_succ_of_lt (hlt server hs), hserver⟩,
        ⟨hnone, by simp [start, hrunning], ⟨Nat.lt_succ_self _, ?_⟩, loop, hloop.congr rfl rfl rfl⟩,
        hinside trivial⟩
      exact fun hmem => Nat.lt_irrefl _ (hended _ hmem)
  | publish server =>
    obtain ⟨hnone, hrunning, ⟨hfresh, hnot⟩, loop, hloop⟩ := hat
    refine ⟨⟨hclosed, hended, ?_, ?_⟩, ⟨rfl, hrunning, hnot, loop, hloop.congr rfl rfl rfl⟩, hinside trivial⟩
    · rintro server' ⟨⟩
      exact hfresh
    · rintro server' ⟨⟩ -
      exact ⟨loop, hloop.loop_eq, hloop.notMem_closed⟩
  | loadServe server =>
    obtain ⟨hs, hrunning, hnot, loop, hloop⟩ := hat
    simp only [start, hloop.loop_eq]
    exact ⟨⟨hclosed, hended, hlt, hserver⟩, ⟨hs, hrunning, hnot, hloop⟩, hinside trivial⟩
  | runServe server loop =>
    obtain ⟨hs, hrunning, hnot, hloop⟩ := hat
    have hfree : ¬ (loop ∈ s.closed ∨ loop ∈ s.running) := by simp [hrunning, hloop.notMem_closed]
    simp only [start, hs, if_neg hfree]
    exact ⟨⟨hclosed, hended, by simpa [hs] using hlt, by simpa [hs] using hserver⟩,
      ⟨rfl, by simp [hrunning], hnot, hloop.congr rfl rfl rfl⟩, hinside trivial⟩
  | serve server loop =>
    obtain ⟨hs, hrunning, -, hloop⟩ := hat
    refine ⟨⟨hclosed, hcons server hs, hlt, ?_⟩,
      ⟨hover server hs, by simp [start, hrunning], loop, hloop.congr rfl rfl rfl⟩, hinside trivial⟩
    exact fun server' hs' hnot => absurd (hover server hs server' hs') hnot
  | loadClose =>
    obtain ⟨hdone, hrunning, loop, hloop⟩ := hat
    simp only [start, hloop.loop_eq]
    exact ⟨⟨hclosed, hended, hlt, hserver⟩, ⟨hdone, hrunning, hloop⟩, hinside trivial⟩
  | close loop =>
    obtain ⟨hdone, hrunning, hloop⟩ := hat
    have hfree : loop ∉ s.running := by simp [hrunning]
    rw [start, if_neg hfree]
    refine ⟨⟨?_, hended, hlt, fun server hs hnot => absurd (hdone server hs) hnot⟩, ⟨hdone, hrunning, ?_⟩, hinside trivial⟩
    · exact List.forall_mem_cons.2 ⟨by simp [hloop.made_eq], hclosed⟩
    · intro loop' hlt'
      rw [hloop.made_eq] at hlt'
      rcases Nat.lt_or_eq_of_le (Nat.le_of_lt_succ hlt') with hlt' | rfl
      · exact List.mem_cons_of_mem _ (hloop.closed loop' hlt')
      · exact List.mem_cons_self
  | resetServer =>
    obtain ⟨-, hrunning, hall⟩ := hat
    exact ⟨⟨hclosed, hended, nofun, nofun⟩, ⟨rfl, hrunning, hall⟩, hinside trivial⟩
  | resetLoop =>
    obtain ⟨hnone, hrunning, hall⟩ := hat
    exact ⟨⟨hclosed, hended, hlt, by simp [start, hnone]⟩, trivial, fun _ => ⟨hnone, rfl, hrunning, hall⟩⟩

omit [DecidableEq κ] in
theorem sound_init : Sound (init : Threads κ) :=
  ⟨⟨⟨nofun, nofun, nofun, nofun⟩, fun _ => trivial, fun _ _ _ h => h.elim⟩, fun _ => ⟨rfl, rfl, rfl, nofun⟩⟩

theorem at_of_not_inStart {place : Place} (h : ¬ InStart place) : s.At place := by
  cases place with
  | outside | stop _ => trivial
  | start _ => exact absurd trivial h

theorem Apart.symm (place place' : Place) (h : Apart place place') : Apart place' place := fun h' h'' => h h'' h'

/-- A statement of `start`. -/
theorem sound_start (h : Sound threads) {e : κ × Input} {raises : Bool} {statement : Start} (hinput : e.2 = .next raises)
    (hplace : threads.place e.1 = .start statement) : Sound (step e threads).2 := by
  obtain ⟨houtlined, -⟩ := h
  have hturn : program e.2 (threads.place e.1) threads.memory = (none, threads.memory.start raises statement) := by
    rw [hinput, hplace]
    rfl
  have hmine := houtlined.2.1 e.1
  rw [hplace] at hmine
  obtain ⟨hfields, hat, hidle⟩ := start_own raises statement houtlined.1 hmine
  have hothers : ∀ k, e.1 ≠ k → ¬ InStart (threads.place k) := by
    intro k hk
    have hapart := houtlined.2.2 e.1 k hk
    rw [hplace] at hapart
    exact hapart trivial
  constructor
  · exact outlined_interleave_of Apart.symm houtlined (by rw [hturn]; exact ⟨hfields, hat⟩)
      fun k hk => ⟨at_of_not_inStart (hothers k hk), fun _ => hothers k hk⟩
  · intro hnobody
    rw [step, memory_interleave, hturn]
    refine hidle fun hinside => hnobody (somewhere_interleave_iff.2 (.inl ?_))
    rwa [hturn]

/-- Every other turn. -/
theorem sound_same (h : Sound threads) {e : κ × Input} (halone : Alone threads e)
    (hstays : ∀ raises statement, e.2 = .next raises → threads.place e.1 ≠ .start statement) :
    Sound (step e threads).2 := by
  obtain ⟨houtlined, hidle⟩ := h
  obtain ⟨hfields, hat, hapart⟩ := id houtlined
  obtain ⟨hsame, hwhere⟩ := same_program e.2 (threads.place e.1) threads.memory hstays
  have hcall : ∀ hstart : e.2 = .start ∧ threads.place e.1 = .outside,
      (program e.2 (threads.place e.1) threads.memory).2.1 = .start .newLoop ∧ ¬ Somewhere InStart threads :=
    fun ⟨hinput, hplace⟩ => ⟨by rw [hinput, hplace]; rfl, halone hinput hplace⟩
  constructor
  · refine outlined_interleave_of Apart.symm houtlined ⟨hfields.same hsame, ?_⟩ fun k hk =>
      ⟨at_same (hat k) hsame, ?_⟩
    · rcases hwhere with hplace | ⟨hplace, -⟩ | hstart
      · rw [hplace]
        exact at_same (hat e.1) hsame
      · exact at_of_not_inStart hplace
      · obtain ⟨hplace, hnobody⟩ := hcall hstart
        rw [hplace]
        exact (hidle hnobody).same hsame
    · rcases hwhere with hplace | ⟨hplace, -⟩ | hstart
      · rw [hplace]
        exact hapart e.1 k hk
      · exact fun hinside => absurd hinside hplace
      · exact fun _ hinside => (hcall hstart).2 ⟨k, hinside⟩
  · intro hnobody
    rw [step, somewhere_interleave_iff, not_or] at hnobody
    refine (hidle fun hsome => ?_).same hsame
    rcases (somewhere_iff e.1).1 hsome with hinside | helsewhere
    · rcases hwhere with hplace | ⟨-, hplace⟩ | ⟨-, hplace⟩
      · exact hnobody.1 (by rwa [hplace])
      · exact hplace hinside
      · rw [hplace] at hinside
        exact hinside
    · exact hnobody.2 helsewhere

/-- A turn keeps the outline, unless it calls `start` while a call of it is under way. -/
theorem sound_step (h : Sound threads) (e : κ × Input) (halone : Alone threads e) : Sound (step e threads).2 := by
  by_cases hnext : ∃ raises statement, e.2 = .next raises ∧ threads.place e.1 = .start statement
  · obtain ⟨raises, statement, hinput, hplace⟩ := hnext
    exact sound_start h hinput hplace
  · exact sound_same h halone fun raises statement hinput hplace => hnext ⟨raises, statement, hinput, hplace⟩

/-! ## What a stop does -/

/-- The shutdown of the server has been executed. -/
def Down (s : MbtcpServer) (v : ℕ) : Prop := ∃ future ∈ s.done, ∃ loop, s.shutdowns[future]? = some (loop, v)

/-- Where a thread is that has found the server, while it has not ended. -/
def Pursues (s : MbtcpServer) (v : ℕ) : Place → Prop
  | .outside => s.Down v
  | .start _ => False
  | .stop .testServer | .stop .testLoop | .stop .shutdown => True
  | .stop (.readLoop server) => server = v
  | .stop (.schedule server loop) => server = v ∧ s.loop = some loop
  | .stop (.result future) => ∃ loop, s.shutdowns[future]? = some (loop, v)

/-- The server has ended, or it is there and the thread is after it. -/
def Found (s : MbtcpServer) (v : ℕ) (place : Place) : Prop := v ∈ s.ended ∨ s.server = some v ∧ s.Pursues v place

/-- Nothing that has been handed over, executed or ended is taken back. -/
structure Later (s s' : MbtcpServer) : Prop where
  ended : s.ended ⊆ s'.ended
  shutdowns : s.shutdowns <+: s'.shutdowns
  done : s.done ⊆ s'.done

theorem Later.refl (s : MbtcpServer) : s.Later s := ⟨fun _ h => h, List.prefix_rfl, fun _ h => h⟩

theorem later_start (raises : Bool) (statement : Start) : s.Later (s.start raises statement).2 := by
  have hrefl : ∀ {s' : MbtcpServer}, s'.ended = s.ended → s'.shutdowns = s.shutdowns → s'.done = s.done → s.Later s' :=
    fun hended hshutdowns hdone => ⟨by rw [hended]; exact fun _ h => h, by rw [hshutdowns], by rw [hdone]; exact fun _ h => h⟩
  have hends : ∀ {s' : MbtcpServer} {server : ℕ}, s'.ended = server :: s.ended → s'.shutdowns = s.shutdowns →
      s'.done = s.done → s.Later s' := fun hended hshutdowns hdone =>
    ⟨by rw [hended]; exact List.subset_cons_self .., by rw [hshutdowns], by rw [hdone]; exact fun _ h => h⟩
  cases statement with
  | newLoop | create _ => cases raises <;> exact hrefl rfl rfl rfl
  | publish _ | resetServer | resetLoop => exact hrefl rfl rfl rfl
  | serve _ _ => exact hends rfl rfl rfl
  | loadCreate | runCreate _ | loadClose | close _ =>
    simp only [start]
    split <;> exact hrefl rfl rfl rfl
  | loadServe _ =>
    simp only [start]
    split
    · exact hrefl rfl rfl rfl
    · exact hends rfl rfl rfl
  | runServe _ _ =>
    simp only [start]
    split
    · split
      · exact hends rfl rfl rfl
      · exact hrefl rfl rfl rfl
    · exact hends rfl rfl rfl

theorem later_execute (loop future : ℕ) : s.Later (s.execute loop future) := by
  rw [execute]
  split
  · exact ⟨fun _ h => h, List.prefix_rfl, List.subset_cons_self ..⟩
  · exact Later.refl s

theorem later_stop (timeout : Bool) (statement : Stop) : s.Later (s.stop timeout statement).2.2 := by
  cases statement with
  | testServer | testLoop | shutdown | readLoop _ =>
    simp only [stop]
    split <;> exact Later.refl s
  | schedule _ _ =>
    simp only [stop]
    split
    · exact Later.refl s
    · exact ⟨fun _ h => h, List.prefix_append .., fun _ h => h⟩
  | result _ =>
    simp only [stop]
    split
    · exact Later.refl s
    · split <;> exact Later.refl s

theorem later_program (i : Input) (place : Place) : s.Later (program i place s).2.2 := by
  rcases i with _ | _ | raises | future
  · cases place <;> exact Later.refl s
  · cases place <;> exact Later.refl s
  · rcases place with _ | statement | statement
    · exact Later.refl s
    · exact later_start raises statement
    · exact later_stop raises statement
  · rcases place with _ | statement | _
    · exact Later.refl s
    · cases statement with
      | create loop => exact later_execute loop future
      | serve server loop => exact later_execute loop future
      | newLoop | loadCreate | runCreate _ | publish _ | loadServe _ | runServe _ _ | loadClose | close _ | resetServer
      | resetLoop => exact Later.refl s
    · exact Later.refl s

theorem Later.getElem? {s s' : MbtcpServer} (h : s.Later s') {future : ℕ} {x : ℕ × ℕ} (hx : s.shutdowns[future]? = some x) :
    s'.shutdowns[future]? = some x := by
  obtain ⟨hfuture, -⟩ := List.getElem?_eq_some_iff.1 hx
  obtain ⟨shutdowns, happend⟩ := h.shutdowns
  rwa [← happend, List.getElem?_append_left hfuture]

theorem Down.later {s' : MbtcpServer} (hdown : s.Down v) (h : s.Later s') : s'.Down v := by
  obtain ⟨future, hdone, loop, hfuture⟩ := hdown
  exact ⟨future, h.done hdone, loop, h.getElem? hfuture⟩

theorem Pursues.later {s' : MbtcpServer} {place : Place} (hpursues : s.Pursues v place) (h : s.Later s')
    (hloop : s'.loop = s.loop) : s'.Pursues v place := by
  rcases place with _ | _ | statement
  · exact Down.later hpursues h
  · exact hpursues
  · cases statement with
    | result future =>
      obtain ⟨loop, hfuture⟩ := hpursues
      exact ⟨loop, h.getElem? hfuture⟩
    | schedule server loop => exact ⟨hpursues.1, hloop.trans hpursues.2⟩
    | testServer | testLoop | shutdown | readLoop _ => exact hpursues

/-- A server is there with its loop until its `start` has ended. -/
theorem published_program {place : Place} (hat : s.At place) (hv : s.server = some v) (i : Input) :
    v ∈ (program i place s).2.2.ended ∨
      (program i place s).2.2.server = some v ∧ (program i place s).2.2.loop = s.loop := by
  by_cases hnext : ∃ raises statement, i = .next raises ∧ place = .start statement
  swap
  · obtain ⟨hsame, -⟩ := same_program i place s fun raises statement hi hplace => hnext ⟨raises, statement, hi, hplace⟩
    exact .inr ⟨hsame.server.trans hv, hsame.loop⟩
  obtain ⟨raises, statement, rfl, rfl⟩ := hnext
  have hnone : s.server ≠ none := by rw [hv]; nofun
  cases statement with
  | newLoop => exact absurd hat.server hnone
  | loadCreate | runCreate _ | create _ | publish _ | resetLoop => exact absurd hat.1 hnone
  | loadServe server =>
    obtain ⟨-, -, -, loop, hloop⟩ := hat
    simp only [program, start, hloop.loop_eq]
    exact .inr ⟨hv, trivial⟩
  | runServe server loop =>
    obtain ⟨hs, hrunning, -, hloop⟩ := hat
    have hfree : ¬ (loop ∈ s.closed ∨ loop ∈ s.running) := by simp [hrunning, hloop.notMem_closed]
    simp only [program, start, hs, if_neg hfree]
    exact .inr ⟨hs.symm.trans hv, trivial⟩
  | serve _ _ => exact .inr ⟨hv, rfl⟩
  | loadClose =>
    simp only [program, start]
    split <;> exact .inr ⟨hv, rfl⟩
  | close _ =>
    simp only [program, start]
    split <;> exact .inr ⟨hv, rfl⟩
  | resetServer => exact .inl (hat.1 v hv)

/-- Other threads leave a thread after its server. -/
theorem found_others {place : Place} (hat : s.At place) {place' : Place} (hfound : s.Found v place') (i : Input) :
    (program i place s).2.2.Found v place' := by
  have hlater := later_program (s := s) i place
  rcases hfound with hended | ⟨hv, hpursues⟩
  · exact .inl (hlater.ended hended)
  · rcases published_program hat hv i with hended | ⟨hv', hloop⟩
    · exact .inl hended
    · exact .inr ⟨hv', hpursues.later hlater hloop⟩

/-- A thread that is after a server that has not ended never raises, and goes on until the shutdown has been executed,
unless it times out. -/
theorem pursues_stop (h : s.Fields) (hv : s.server = some v) (hrunning : v ∉ s.ended) {statement : Stop}
    (hpursues : s.Pursues v (.stop statement)) (timeout : Bool) :
    (s.stop timeout statement).1 ≠ some .raised ∧ ((s.stop timeout statement).1 ≠ some .timedOut →
      (s.stop timeout statement).2.2.Pursues v (s.stop timeout statement).2.1) := by
  obtain ⟨loop, hloop, hopen⟩ := h.server v hv hrunning
  cases statement with
  | testServer =>
    rw [stop, if_neg (by rw [hv]; nofun)]
    exact ⟨nofun, fun _ => trivial⟩
  | testLoop =>
    rw [stop, if_neg (by rw [hloop]; nofun)]
    exact ⟨nofun, fun _ => trivial⟩
  | shutdown =>
    simp only [stop, hv]
    exact ⟨nofun, fun _ => rfl⟩
  | readLoop server =>
    simp only [stop, hloop]
    exact ⟨nofun, fun _ => ⟨hpursues, hloop⟩⟩
  | schedule server loop' =>
    obtain ⟨rfl, hloop'⟩ := hpursues
    obtain rfl := Option.some.inj (hloop.symm.trans hloop')
    rw [stop, if_neg hopen]
    exact ⟨nofun, fun _ => ⟨loop, List.getElem?_concat_length⟩⟩
  | result future =>
    obtain ⟨loop', hfuture⟩ := hpursues
    rw [stop]
    split
    · next hdone => exact ⟨nofun, fun _ => ⟨future, hdone, loop', hfuture⟩⟩
    · split
      · exact ⟨nofun, fun htimeout => absurd rfl htimeout⟩
      · exact ⟨nofun, fun _ => ⟨loop', hfuture⟩⟩

omit [DecidableEq κ] in
theorem found_own (h : Sound threads) (hfound : threads.memory.Found v (threads.place k)) (i : Input) :
    ((program i (threads.place k) threads.memory).1 = some .raised → v ∈ threads.memory.ended) ∧
      ((program i (threads.place k) threads.memory).1 ≠ some .timedOut → Alone threads (k, i) →
        (program i (threads.place k) threads.memory).2.2.Found v (program i (threads.place k) threads.memory).2.1) := by
  obtain ⟨⟨hfields, hat, -⟩, hidle⟩ := h
  by_cases hended : v ∈ threads.memory.ended
  · exact ⟨fun _ => hended, fun _ _ => .inl ((later_program i _).ended hended)⟩
  · obtain ⟨hv, hpursues⟩ := hfound.resolve_left hended
    have hpursuit : (program i (threads.place k) threads.memory).1 ≠ some .raised ∧
        ((program i (threads.place k) threads.memory).1 ≠ some .timedOut → Alone threads (k, i) →
          (program i (threads.place k) threads.memory).2.2.Pursues v (program i (threads.place k) threads.memory).2.1) := by
      rcases hplace : threads.place k with _ | _ | statement
      · rw [hplace] at hpursues
        cases i with
        | start =>
          -- a server is there, so a call of `start` is under way
          refine ⟨nofun, fun _ halone => ?_⟩
          have hnone := (hidle (halone rfl hplace)).server
          cases hnone.symm.trans hv
        | stop => exact ⟨nofun, fun _ _ => trivial⟩
        | next _ | execute _ => exact ⟨nofun, fun _ _ => hpursues⟩
      · rw [hplace] at hpursues
        exact hpursues.elim
      · rw [hplace] at hpursues
        cases i with
        | next timeout =>
          obtain ⟨hraised, hgoes⟩ := pursues_stop hfields hv hended hpursues timeout
          exact ⟨hraised, fun htimeout _ => hgoes htimeout⟩
        | start | stop | execute _ => exact ⟨nofun, fun _ _ => hpursues⟩
    refine ⟨fun hraised => absurd hraised hpursuit.1, fun htimeout halone => ?_⟩
    rcases published_program (hat k) hv i with hended' | ⟨hv', -⟩
    · exact .inl hended'
    · exact .inr ⟨hv', hpursuit.2 htimeout halone⟩

/-- A turn of the thread or of another one, with what the thread answers. -/
theorem found_step (h : Sound threads) (hfound : threads.memory.Found v (threads.place k)) (e : κ × Input)
    (halone : Alone threads e) (hcalm : e.1 = k → (step e threads).1 ≠ some .timedOut) :
    (e.1 = k → (step e threads).1 = some .raised → v ∈ threads.memory.ended) ∧
      (step e threads).2.memory.Found v ((step e threads).2.place k) := by
  constructor
  · rintro rfl
    exact (found_own h hfound e.2).1
  · refine interleave_at (B := fun (s : MbtcpServer) place => s.Found v place) ?_ fun _ =>
      found_others (h.outlined.2.1 e.1) hfound e.2
    rintro rfl
    exact (found_own h hfound e.2).2 (hcalm rfl) halone

theorem sound_run (turns : List (κ × Input))
    (halone : ∀ x ∈ transitions step turns (init : Threads κ), Alone x.before x.event) :
    Sound (final step turns (init : Threads κ)) :=
  final_invariant_of (I := Sound) (fun e _ h halone => sound_step h e halone) turns sound_init halone

/-- A thread that calls `stop` with the server there is after it. -/
theorem found_stop (hv : threads.memory.server = some v) (houtside : threads.place k = .outside) :
    (step (k, .stop) threads).2.memory.Found v ((step (k, .stop) threads).2.place k) := by
  have hturn : program .stop (threads.place k) threads.memory = (none, .stop .testServer, threads.memory) := by
    rw [houtside]
    rfl
  have hplace : (step (k, .stop) threads).2.place k = .stop .testServer :=
    place_interleave_self.trans (congrArg (·.2.1) hturn)
  rw [hplace]
  exact .inr ⟨(congrArg (·.2.2.server) hturn).trans hv, trivial⟩

/-- One thread comes to serve a second server, after a first one that could not be created. -/
def servedTwice : List (Bool × Input) :=
  [(true, .start), (true, .next false), (true, .next false), (true, .next false), (true, .next true),
    (true, .next false), (true, .next false), (true, .next false), (true, .next false),
    (true, .start), (true, .next false), (true, .next false), (true, .next false), (true, .next false),
    (true, .next false)]

/-- The other thread stops it. -/
def servedStop : List (Bool × Input) :=
  [(true, .next false), (false, .next false), (false, .next false), (false, .next false), (true, .next false),
    (false, .next false), (false, .next false), (true, .execute 0), (false, .next false)]

/-- When no thread is in `start`, however often it has been called, one call after the other, and however it has ended,
the fields are empty and every event loop that was made is closed. -/
theorem start_leaves_nothing (turns : List (κ × Input))
    (halone : ∀ x ∈ transitions step turns (init : Threads κ), Alone x.before x.event)
    (h : ¬ Somewhere InStart (final step turns (init : Threads κ))) :
    (final step turns (init : Threads κ)).memory.server = none ∧ (final step turns (init : Threads κ)).memory.loop = none ∧
      ∀ loop < (final step turns (init : Threads κ)).memory.made,
        loop ∈ (final step turns (init : Threads κ)).memory.closed := by
  obtain ⟨hserver, hloop, -, hclosed⟩ := (sound_run turns halone).idle h
  exact ⟨hserver, hloop, hclosed⟩

/-- The second server ends, and its start with it. -/
def endedTwice : List (Bool × Input) := servedTwice ++ List.replicate 7 (true, .next false)

/-- A start that cannot create its server, and one behind it whose server ends. -/
theorem start_leaves_nothing_endedTwice :
    (final step endedTwice init).memory.server = none ∧ (final step endedTwice init).memory.loop = none ∧
      ∀ loop < (final step endedTwice init).memory.made, loop ∈ (final step endedTwice init).memory.closed := by
  have halone : ∀ x ∈ transitions step endedTwice (init : Threads Bool), Alone x.before x.event := by decide +kernel
  have hnobody : ¬ Somewhere InStart (final step endedTwice (init : Threads Bool)) := by decide +kernel
  exact start_leaves_nothing endedTwice halone hnobody

/-- Two starts that overlap: the second one takes the field from the first one, whose own loop then stays open. -/
def overlappingStarts : List (Bool × Input) :=
  [(true, .start), (true, .next false), (false, .start), (false, .next false)] ++
    List.replicate 11 (true, .next false) ++ List.replicate 3 (false, .next false)

example : (final step overlappingStarts init).memory.made = 2 ∧ (final step overlappingStarts init).memory.closed = [1] := by
  decide +kernel

end MbtcpServer

end Cursus.Mbtcp
