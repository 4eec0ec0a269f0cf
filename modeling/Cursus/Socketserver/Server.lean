/-
`start` and `stop` of `BacnetServer` of `cursus/bacnet/server.py` and `EnipServer` of `cursus/enip/server.py`: the same
program, over a `socketserver` server of their own, called by any number of threads. A `stop` that waits is never left
alone: a thread serves its server, the request to end is not lost, and the thread has no more than five statements
left. And every server that is being served can be stopped, unless calls of `start` overlap.
-/
import Cursus.Run.Places

namespace Cursus.Socketserver

open Cursus.Run

/-! ## The program -/

/-- The statements of `start`, with the number of the server that a thread has in its variable: `serve_forever` begins
with the clear of `__is_shut_down`, and ends with the reset of `__shutdown_request` and `__is_shut_down.set()`. -/
inductive Start
  | construct
  | publish (server : ℕ)
  | clear (server : ℕ)
  | test (server : ℕ)
  | select (server : ℕ)
  | handle (server : ℕ)
  | resetRequest (server : ℕ)
  | setShutDown (server : ℕ)
  | close (server : ℕ)
  | unpublish
  deriving DecidableEq

/-- The statements of `stop`, of which `shutdown` has the last two. -/
inductive Stop
  | test
  | getServer
  | request (server : ℕ)
  | wait (server : ℕ)
  deriving DecidableEq

inductive Place
  | outside
  | start (statement : Start)
  | stop (statement : Stop)
  deriving DecidableEq

/-- A thread calls `start` or `stop`, or executes its next statement; where the socket or a handler may raise is left
to the surroundings. -/
inductive Input
  | start
  | stop
  | next (raises : Bool)

/-- How a call of `stop` ends. -/
inductive Answer
  | returned
  | raised
  deriving DecidableEq

/-- The field `_server`, by the number of the server that it holds; how many servers were made; and their
`__shutdown_request` and `__is_shut_down`. -/
structure Servers where
  server : Option ℕ
  made : ℕ
  shutdownRequest : ℕ → Bool
  isShutDown : ℕ → Bool

namespace Servers

def start (raises : Bool) : Start → Servers → Place × Servers
  | .construct, s => if raises then (.outside, s) else (.start (.publish s.made), { s with made := s.made + 1 })
  | .publish n, s => (.start (.clear n), { s with server := some n })
  | .clear n, s => (.start (.test n), { s with isShutDown := Function.update s.isShutDown n false })
  | .test n, s => (.start (if s.shutdownRequest n then .resetRequest n else .select n), s)
  -- behind `select` the request is tested again
  | .select n, s => (.start (if raises || s.shutdownRequest n then .resetRequest n else .handle n), s)
  | .handle n, s => (.start (if raises then .resetRequest n else .test n), s)
  | .resetRequest n, s =>
    (.start (.setShutDown n), { s with shutdownRequest := Function.update s.shutdownRequest n false })
  | .setShutDown n, s => (.start (.close n), { s with isShutDown := Function.update s.isShutDown n true })
  | .close _, s => (if raises then .outside else .start .unpublish, s)
  | .unpublish, s => (.outside, { s with server := none })

def stop : Stop → Servers → Option Answer × Place × Servers
  | .test, s => if s.server = none then (some .returned, .outside, s) else (none, .stop .getServer, s)
  | .getServer, s =>
    match s.server with
    | some n => (none, .stop (.request n), s)
    | none => (some .raised, .outside, s)
  | .request n, s => (none, .stop (.wait n), { s with shutdownRequest := Function.update s.shutdownRequest n true })
  | .wait n, s => if s.isShutDown n then (some .returned, .outside, s) else (none, .stop (.wait n), s)

def program : Program Servers Place Input (Option Answer)
  | .start, .outside, s => (none, .start .construct, s)
  | .stop, .outside, s => (none, .stop .test, s)
  | .next raises, .start statement, s => (none, s.start raises statement)
  | .next _, .stop statement, s => s.stop statement
  | _, place, s => (none, place, s)

/-- The field and the servers, and the threads that call. -/
abbrev Threads (κ : Type) := Places κ Servers Place

def init {κ : Type} : Threads κ := ⟨⟨none, 0, fun _ => false, fun _ => false⟩, fun _ => .outside⟩

variable {κ : Type} [DecidableEq κ] {s : Servers} {threads : Threads κ} {k : κ} {n : ℕ}

def step : Step (Threads κ) (κ × Input) (Option Answer) := interleave program

/-! ## The outline -/

/-- The server that a thread has made and not shut down yet, by where it is. -/
def runs : Place → Option ℕ
  | .start (.publish n) | .start (.clear n) | .start (.test n) | .start (.select n) | .start (.handle n)
  | .start (.resetRequest n) | .start (.setShutDown n) => some n
  | .start .construct | .start (.close _) | .start .unpublish | .outside | .stop _ => none

/-- The server that a thread has published and listens for. -/
def serves : Place → Option ℕ
  | .start (.clear n) | .start (.test n) | .start (.select n) | .start (.handle n) => some n
  | .start (.publish _) | .start (.resetRequest _) | .start (.setShutDown _) | .start .construct | .start (.close _)
  | .start .unpublish | .outside | .stop _ => none

/-- What is known of servers that do not exist yet, and of the one in the field. -/
structure Fields (s : Servers) : Prop where
  server : ∀ n, s.server = some n → n < s.made
  unmade : ∀ n, s.made ≤ n → s.isShutDown n = false

/-- The server of a place was made, and a thread that runs one has not shut it down. -/
def At (s : Servers) (place : Place) : Prop :=
  (∀ n, runs place = some n → n < s.made ∧ s.isShutDown n = false) ∧
    ∀ n, place = .stop (.request n) ∨ place = .stop (.wait n) → n < s.made

/-- No two threads run one server. -/
def Apart (place place' : Place) : Prop := ∀ n, runs place = some n → runs place' ≠ some n

/-- What a turn does to the servers: it makes one, it shuts down the one that the thread runs, or it leaves all to
those that run them. -/
structure Effect (place : Place) (s : Servers) (place' : Place) (s' : Servers) : Prop where
  server : ∀ n, s'.server = some n → s.server = some n ∨ runs place = some n
  isShutDown : ∀ n, runs place ≠ some n → s'.isShutDown n = s.isShutDown n
  runs : (runs place' = runs place ∧ s'.made = s.made ∧ ∀ n, s.isShutDown n = false → s'.isShutDown n = false) ∨
    (runs place = none ∧ runs place' = some s.made ∧ s'.made = s.made + 1) ∨
    ∃ n, runs place = some n ∧ runs place' = none ∧ s'.made = s.made ∧ s'.isShutDown n = true
  stop : ∀ n, place' = .stop (.request n) ∨ place' = .stop (.wait n) →
    s.server = some n ∨ place = .stop (.request n) ∨ place = .stop (.wait n)

theorem effect_stays (place : Place) (s : Servers) : Effect place s place s :=
  ⟨fun _ h => .inl h, fun _ _ => rfl, .inl ⟨rfl, rfl, fun _ h => h⟩, fun _ h => .inr h⟩

theorem effect_start (raises : Bool) (statement : Start) (s : Servers) :
    Effect (.start statement) s (s.start raises statement).1 (s.start raises statement).2 := by
  cases statement with
  | construct => cases raises <;> constructor <;> simp +contextual [start, runs]
  | publish n => constructor <;> simp +contextual [start, runs]
  | clear n =>
    constructor
    · exact fun _ h => .inl h
    · intro m hm
      exact Function.update_of_ne (fun h => hm (congrArg some h.symm)) ..
    · refine .inl ⟨rfl, rfl, fun m hm => ?_⟩
      by_cases h : m = n
      · subst h
        exact Function.update_self ..
      · exact (Function.update_of_ne h ..).trans hm
    · simp [start]
  | test n => simp only [start]; split <;> constructor <;> simp +contextual [runs]
  | select n => simp only [start]; split <;> constructor <;> simp +contextual [runs]
  | handle n => cases raises <;> constructor <;> simp +contextual [start, runs]
  | resetRequest n => constructor <;> simp +contextual [start, runs]
  | setShutDown n =>
    constructor
    · exact fun _ h => .inl h
    · intro m hm
      exact Function.update_of_ne (fun h => hm (congrArg some h.symm)) ..
    · exact .inr (.inr ⟨n, rfl, rfl, rfl, Function.update_self ..⟩)
    · simp [start]
  | close n => cases raises <;> constructor <;> simp +contextual [start, runs]
  | unpublish => constructor <;> simp +contextual [start, runs]

theorem effect_stop (statement : Stop) (s : Servers) :
    Effect (.stop statement) s (s.stop statement).2.1 (s.stop statement).2.2 := by
  cases statement with
  | test => simp only [stop]; split <;> constructor <;> simp +contextual [runs]
  | getServer =>
    simp only [stop]
    split
    · next n hn => constructor <;> simp [runs, hn]
    · constructor <;> simp [runs]
  | request n => constructor <;> simp [stop, runs]
  | wait n => simp only [stop]; split <;> constructor <;> simp +contextual [runs]

theorem effect_program (i : Input) (place : Place) (s : Servers) :
    Effect place s (program i place s).2.1 (program i place s).2.2 := by
  cases i with
  | start =>
    cases place with
    | outside => constructor <;> simp [program, runs]
    | start _ | stop _ => exact effect_stays ..
  | stop =>
    cases place with
    | outside => constructor <;> simp [program, runs]
    | start _ | stop _ => exact effect_stays ..
  | next raises =>
    cases place with
    | outside => exact effect_stays ..
    | start statement => exact effect_start raises statement s
    | stop statement => exact effect_stop statement s

theorem Effect.made_le {place place' : Place} {s' : Servers} (h : Effect place s place' s') : s.made ≤ s'.made := by
  rcases h.runs with ⟨-, hmade, -⟩ | ⟨-, -, hmade⟩ | ⟨n, -, -, hmade, -⟩
  · exact hmade.ge
  · exact (Nat.le_succ _).trans_eq hmade.symm
  · exact hmade.ge

theorem own (i : Input) (place : Place) (s : Servers) (h : s.Fields) (hat : s.At place) :
    (program i place s).2.2.Fields ∧ (program i place s).2.2.At (program i place s).2.1 := by
  have heffect := effect_program i place s
  have hmade := heffect.made_le
  refine ⟨⟨fun n hn => ?_, fun n hn => ?_⟩, fun n hn => ?_, fun n hn => ?_⟩
  · rcases heffect.server n hn with hserver | hruns
    · exact (h.server n hserver).trans_le hmade
    · exact (hat.1 n hruns).1.trans_le hmade
  · have hother : runs place ≠ some n := fun hruns => by
      have := (hat.1 n hruns).1
      omega
    rw [heffect.isShutDown n hother]
    exact h.unmade n (hmade.trans hn)
  · rcases heffect.runs with ⟨hruns, -, hkept⟩ | ⟨hruns, hnew, hmade'⟩ | ⟨m, -, hnone, -⟩
    · obtain ⟨hlt, hserved⟩ := hat.1 n (hruns.symm.trans hn)
      exact ⟨hlt.trans_le hmade, hkept n hserved⟩
    · obtain rfl : s.made = n := Option.some_inj.1 (hnew.symm.trans hn)
      refine ⟨(Nat.lt_succ_self _).trans_eq hmade'.symm, ?_⟩
      rw [heffect.isShutDown _ (by rw [hruns]; nofun)]
      exact h.unmade _ le_rfl
    · cases hnone.symm.trans hn
  · rcases heffect.stop n hn with hserver | hplace
    · exact (h.server n hserver).trans_le hmade
    · exact (hat.2 n hplace).trans_le hmade

theorem others (i : Input) (place place' : Place) (s : Servers) (hat' : s.At place') (happart : Apart place place') :
    (program i place s).2.2.At place' ∧ Apart (program i place s).2.1 place' := by
  have heffect := effect_program i place s
  refine ⟨⟨fun n hn => ?_, fun n hn => (hat'.2 n hn).trans_le heffect.made_le⟩, fun n hn hn' => ?_⟩
  · obtain ⟨hlt, hserved⟩ := hat'.1 n hn
    refine ⟨hlt.trans_le heffect.made_le, ?_⟩
    rw [heffect.isShutDown n fun hruns => happart n hruns hn]
    exact hserved
  · rcases heffect.runs with ⟨hruns, -⟩ | ⟨-, hnew, -⟩ | ⟨m, -, hnone, -⟩
    · exact happart n (hruns.symm.trans hn) hn'
    · obtain rfl : s.made = n := Option.some_inj.1 (hnew.symm.trans hn)
      exact Nat.lt_irrefl _ (hat'.1 _ hn').1
    · cases hnone.symm.trans hn

omit [DecidableEq κ] in
theorem outlined_init : Outlined Fields At Apart (init : Threads κ) :=
  ⟨⟨nofun, fun _ _ => rfl⟩, fun _ => ⟨nofun, by simp [init]⟩, fun _ _ _ => nofun⟩

theorem outlined_step (h : Outlined Fields At Apart threads) (e : κ × Input) :
    Outlined Fields At Apart (step e threads).2 :=
  outlined_interleave (fun _ _ h n hn' hn => h n hn hn') own (fun i place place' s _ _ hat' h => others i place place' s hat' h)
    h e

/-- A server that is shut down stays so. -/
theorem isShutDown_program {place : Place} (hat : s.At place) (h : s.isShutDown n = true) (i : Input) :
    (program i place s).2.2.isShutDown n = true := by
  rw [(effect_program i place s).isShutDown n fun hruns => ?_]
  · exact h
  · cases h.symm.trans (hat.1 n hruns).2

/-! ## The request -/

/-- A request is only reset by the thread that runs the server, on its way to shut it down. -/
theorem shutdownRequest_program (i : Input) (place : Place) (h : s.shutdownRequest n = true) :
    (program i place s).2.2.shutdownRequest n = true ∨
      runs place = some n ∧ (program i place s).2.1 = .start (.setShutDown n) := by
  rcases i with _ | _ | raises
  · cases place <;> exact .inl h
  · cases place <;> exact .inl h
  · rcases place with _ | statement | statement
    · exact .inl h
    · cases statement with
      | resetRequest m =>
        by_cases hm : n = m
        · subst hm
          exact .inr ⟨rfl, rfl⟩
        · exact .inl ((Function.update_of_ne hm ..).trans h)
      | construct => cases raises <;> exact .inl h
      | publish _ | clear _ | test _ | select _ | handle _ | setShutDown _ | close _ | unpublish => exact .inl h
    · cases statement with
      | test | getServer | wait _ => simp only [program, stop]; split <;> exact .inl h
      | request m =>
        by_cases hm : n = m
        · subst hm
          exact .inl (Function.update_self ..)
        · exact .inl ((Function.update_of_ne hm ..).trans h)

/-- A thread that has been asked to end: the server is shut down, or the thread runs it with the request pending, or
shuts it down next. -/
def Ending (n : ℕ) (s : Servers) (place : Place) : Prop :=
  s.isShutDown n = true ∨ runs place = some n ∧ (s.shutdownRequest n = true ∨ place = .start (.setShutDown n))

/-- A turn of the thread itself. -/
theorem ending_own {place : Place} (hat : s.At place) (h : Ending n s place) (i : Input) :
    Ending n (program i place s).2.2 (program i place s).2.1 := by
  rcases h with hshut | ⟨hruns, hasked⟩
  · exact .inl (isShutDown_program hat hshut i)
  · rcases (effect_program i place s).runs with ⟨hsame, -⟩ | ⟨hnone, -⟩ | ⟨m, hm, -, -, hshut⟩
    · have hruns' := hsame.trans hruns
      rcases hasked with hrequest | rfl
      · rcases shutdownRequest_program i place hrequest with hrequest' | ⟨-, hplace⟩
        · exact .inr ⟨hruns', .inl hrequest'⟩
        · exact .inr ⟨hruns', .inr hplace⟩
      · cases i with
        | start | stop => exact .inr ⟨rfl, .inr rfl⟩
        | next _ => cases hruns'
    · cases hnone.symm.trans hruns
    · obtain rfl : n = m := Option.some_inj.1 (hruns.symm.trans hm)
      exact .inl hshut

/-- A turn of another thread. -/
theorem ending_others {place place' : Place} (hat : s.At place) (happart : Apart place place') (h : Ending n s place')
    (i : Input) : Ending n (program i place s).2.2 place' := by
  rcases h with hshut | ⟨hruns, hasked⟩
  · exact .inl (isShutDown_program hat hshut i)
  · refine .inr ⟨hruns, hasked.imp_left fun hrequest => ?_⟩
    exact (shutdownRequest_program i place hrequest).resolve_right fun h => happart n h.1 hruns

theorem ending_step (h : Outlined Fields At Apart threads) (hending : Ending n threads.memory (threads.place k))
    (e : κ × Input) : Ending n (step e threads).2.memory ((step e threads).2.place k) := by
  obtain ⟨-, hat, happart⟩ := h
  refine interleave_at (B := Ending n) ?_ fun hk => ending_others (hat e.1) (happart e.1 k hk) hending e.2
  rintro rfl
  exact ending_own (hat e.1) hending e.2

/-! ## What a stop waits for -/

/-- Every server that was made is shut down or run by a thread, and every `stop` that waits is attended to. -/
structure Waited (threads : Threads κ) : Prop where
  made : ∀ n < threads.memory.made,
    threads.memory.isShutDown n = true ∨ Somewhere (fun place => runs place = some n) threads
  wait : ∀ k n, threads.place k = .stop (.wait n) → ∃ k, Ending n threads.memory (threads.place k)

/-- A thread begins to wait where it has set the request. -/
theorem wait_program {place : Place} {i : Input} (h : (program i place s).2.1 = .stop (.wait n)) :
    place = .stop (.wait n) ∨ place = .stop (.request n) ∧ (program i place s).2.2.shutdownRequest n = true := by
  rcases i with _ | _ | raises
  · cases place <;> first | exact .inl h | cases h
  · cases place <;> first | exact .inl h | cases h
  · rcases place with _ | statement | statement
    · cases h
    · have hplace : ∀ stop, (s.start raises statement).1 ≠ .stop stop := by
        intro stop
        cases statement <;> cases raises <;> simp [start]
      exact absurd h (hplace _)
    · cases statement with
      | test | getServer => simp only [program, stop] at h; split at h <;> cases h
      | request m =>
        cases h
        exact .inr ⟨rfl, Function.update_self ..⟩
      | wait m =>
        simp only [program, stop] at h
        split at h
        · cases h
        · exact .inl h

theorem made_step (h : Outlined Fields At Apart threads) (hwaited : Waited threads) (e : κ × Input)
    (hn : n < (step e threads).2.memory.made) :
    (step e threads).2.memory.isShutDown n = true ∨
      Somewhere (fun place => runs place = some n) (step e threads).2 := by
  have heffect := effect_program e.2 (threads.place e.1) threads.memory
  have hbefore : n < threads.memory.made ∨ runs (program e.2 (threads.place e.1) threads.memory).2.1 = some n := by
    rcases heffect.runs with ⟨-, hmade, -⟩ | ⟨-, hnew, hmade⟩ | ⟨m, -, -, hmade, -⟩
    · exact .inl (hn.trans_eq hmade)
    · rcases Nat.lt_or_eq_of_le (Nat.le_of_lt_succ (hn.trans_eq hmade)) with hlt | rfl
      · exact .inl hlt
      · exact .inr hnew
    · exact .inl (hn.trans_eq hmade)
  rcases hbefore with hbefore | hnew
  · rcases hwaited.made n hbefore with hshut | hsomewhere
    · exact .inl (isShutDown_program (h.2.1 e.1) hshut e.2)
    · rcases (somewhere_iff e.1).1 hsomewhere with hruns | helsewhere
      · rcases heffect.runs with ⟨hsame, -⟩ | ⟨hnone, -⟩ | ⟨m, hm, -, -, hshut⟩
        · exact .inr (somewhere_interleave_iff.2 (.inl (hsame.trans hruns)))
        · cases hnone.symm.trans hruns
        · obtain rfl : n = m := Option.some_inj.1 (hruns.symm.trans hm)
          exact .inl hshut
      · exact .inr (somewhere_interleave_iff.2 (.inr helsewhere))
  · exact .inr (somewhere_interleave_iff.2 (.inl hnew))

theorem waited_step (h : Outlined Fields At Apart threads) (hwaited : Waited threads) (e : κ × Input) :
    Waited (step e threads).2 := by
  refine ⟨fun n hn => made_step h hwaited e hn, fun k n hk => ?_⟩
  have hkept : threads.place k = .stop (.wait n) →
      ∃ k, Ending n (step e threads).2.memory ((step e threads).2.place k) := by
    intro hwait
    obtain ⟨k', hending⟩ := hwaited.wait k n hwait
    exact ⟨k', ending_step h hending e⟩
  by_cases hke : k = e.1
  · subst hke
    rw [step, place_interleave_self] at hk
    rcases wait_program hk with hwait | ⟨hplace, hrequest⟩
    · exact hkept hwait
    · have hmade : n < (step e threads).2.memory.made :=
        ((h.2.1 e.1).2 n (.inl hplace)).trans_le (effect_program e.2 (threads.place e.1) threads.memory).made_le
      rcases made_step h hwaited e hmade with hshut | ⟨k', hruns⟩
      · exact ⟨e.1, .inl hshut⟩
      · exact ⟨k', .inr ⟨hruns, .inl hrequest⟩⟩
  · rw [step, place_interleave_of_ne hke] at hk
    exact hkept hk

omit [DecidableEq κ] in
theorem waited_init : Waited (init : Threads κ) := ⟨nofun, nofun⟩

theorem waited_run (turns : List (κ × Input)) :
    Outlined Fields At Apart (final step turns (init : Threads κ)) ∧ Waited (final step turns (init : Threads κ)) := by
  have hstep : ∀ e (threads : Threads κ), Outlined Fields At Apart threads ∧ Waited threads →
      Outlined Fields At Apart (step e threads).2 ∧ Waited (step e threads).2 :=
    fun e _ h => ⟨outlined_step h.1 e, waited_step h.1 h.2 e⟩
  exact final_invariant hstep turns ⟨outlined_init, waited_init⟩

/-! ## The end of the server -/

/-- The statements that a thread has left until it shuts down a server with the request pending. -/
def left (n : ℕ) (place : Place) : ℕ :=
  if runs place = some n then
    match place with
    | .start (.publish _) => 5
    | .start (.clear _) | .start (.handle _) => 4
    | .start (.test _) | .start (.select _) => 3
    | .start (.resetRequest _) => 2
    | _ => 1
  else 0

/-- The thread executes a statement in which it runs the server. -/
def running (n : ℕ) (i : Input) (place : Place) : Bool :=
  match i with
  | .next _ => runs place = some n
  | .start | .stop => false

theorem left_eq_zero {place : Place} (h : runs place ≠ some n) : left n place = 0 := if_neg h

/-- Every statement of a thread that is to end the server uses up one that is left. -/
theorem left_program {place : Place} (hat : s.At place) (hn : n < s.made) (h : Ending n s place) (i : Input) :
    left n (program i place s).2.1 + (if running n i place then 1 else 0) ≤ left n place := by
  by_cases hruns : runs place = some n
  · obtain ⟨-, hasked⟩ := h.resolve_left (by rw [(hat.1 n hruns).2]; nofun)
    rcases place with _ | statement | _
    · cases hruns
    · rcases i with _ | _ | raises
      · exact le_rfl
      · exact le_rfl
      · cases statement with
        | publish m | clear m | resetRequest m | setShutDown m =>
          cases hruns
          simp [program, start, running, left, runs]
        | test m =>
          cases hruns
          have hrequest := hasked.resolve_right nofun
          simp [program, start, running, left, runs, hrequest]
        | select m =>
          cases hruns
          have hrequest := hasked.resolve_right nofun
          simp [program, start, running, left, runs, hrequest]
        | handle m =>
          cases hruns
          cases raises <;> simp [program, start, running, left, runs]
        | construct | close _ | unpublish => cases hruns
    · cases hruns
  · have hnot : running n i place = false := by
      cases i <;> simp [running, hruns]
    have hruns' : runs (program i place s).2.1 ≠ some n := by
      rcases (effect_program i place s).runs with ⟨hsame, -⟩ | ⟨-, hnew, -⟩ | ⟨m, -, hnone, -⟩
      · rwa [hsame]
      · rw [hnew]
        rintro ⟨⟩
        exact Nat.lt_irrefl _ hn
      · rw [hnone]
        nofun
    rw [left_eq_zero hruns', left_eq_zero hruns, hnot]
    rfl

theorem left_le (place : Place) : left n place ≤ 5 := by
  unfold left
  split
  · split <;> omega
  · omega

/-- A thread that is to end a server does so, with no more than five statements in which it runs the server. -/
theorem ending_run (h : Outlined Fields At Apart threads) (hn : n < threads.memory.made)
    (hending : Ending n threads.memory (threads.place k)) (turns : List (κ × Input)) :
    (transitions step turns threads).countP (Own k (running n)) ≤ 5 ∧
      Ending n (final step turns threads).memory ((final step turns threads).place k) := by
  have hstep : ∀ e (threads : Threads κ), Outlined Fields At Apart threads ∧ n < threads.memory.made ∧
      Ending n threads.memory (threads.place k) → Outlined Fields At Apart (step e threads).2 ∧
        n < (step e threads).2.memory.made ∧ Ending n (step e threads).2.memory ((step e threads).2.place k) := by
    rintro e threads ⟨h, hn, hending⟩
    exact ⟨outlined_step h e, hn.trans_le (effect_program e.2 (threads.place e.1) threads.memory).made_le,
      ending_step h hending e⟩
  constructor
  · refine (countP_own_le (C := fun _ _ => True) k (running n) (left n) (fun e threads h _ => hstep e threads h)
      (fun i threads h _ => ?_) turns ⟨h, hn, hending⟩ fun _ _ => trivial).trans (left_le _)
    exact left_program (h.1.2.1 k) h.2.1 h.2.2 i
  · exact (final_invariant hstep turns ⟨h, hn, hending⟩).2.2

/-- A `stop` that waits in some state of a run does not wait in vain. Its server is shut down and run by no thread; or a
thread runs it and shuts it down, and from there on executes no more than five statements in which it does. -/
theorem stop_not_in_vain (turns : List (κ × Input)) (k : κ)
    (hwait : (final step turns (init : Threads κ)).place k = .stop (.wait n)) :
    ((final step turns (init : Threads κ)).memory.isShutDown n = true ∧
        ¬ Somewhere (fun place => runs place = some n) (final step turns (init : Threads κ))) ∨
      ∃ k', runs ((final step turns (init : Threads κ)).place k') = some n ∧ ∀ turns',
        (transitions step turns' (final step turns (init : Threads κ))).countP (Own k' (running n)) ≤ 5 ∧
          (runs ((final step turns' (final step turns (init : Threads κ))).place k') ≠ some n →
            (final step turns' (final step turns (init : Threads κ))).memory.isShutDown n = true) := by
  obtain ⟨houtlined, hwaited⟩ := waited_run turns
  have hn := (houtlined.2.1 k).2 n (.inr hwait)
  obtain ⟨k', hending⟩ := hwaited.wait k n hwait
  by_cases hshut : (final step turns (init : Threads κ)).memory.isShutDown n = true
  · refine .inl ⟨hshut, ?_⟩
    rintro ⟨k'', hruns⟩
    cases hshut.symm.trans ((houtlined.2.1 k'').1 n hruns).2
  · refine .inr ⟨k', (hending.resolve_left hshut).1, fun turns' => ?_⟩
    obtain ⟨hcount, hending'⟩ := ending_run houtlined hn hending turns'
    exact ⟨hcount, fun hruns => hending'.resolve_right fun h => hruns h.1⟩

/-- One thread serves, and another one waits for the end. -/
theorem stop_not_in_vain_handling :
    let threads : Threads Bool := final step [(true, .start), (true, .next false), (true, .next false), (true, .next false),
      (true, .next false), (true, .next false), (false, .stop), (false, .next false), (false, .next false),
      (false, .next false)] init
    (threads.memory.isShutDown 0 = true ∧ ¬ Somewhere (fun place => runs place = some 0) threads) ∨
      ∃ k', runs (threads.place k') = some 0 ∧ ∀ turns',
        (transitions step turns' threads).countP (Own k' (running 0)) ≤ 5 ∧
          (runs ((final step turns' threads).place k') ≠ some 0 →
            (final step turns' threads).memory.isShutDown 0 = true) :=
  stop_not_in_vain _ false rfl

/-! ## Servers that can be stopped -/

/-- Every server that is being served is the one in the field. -/
def Stoppable (threads : Threads κ) : Prop :=
  ∀ n, Somewhere (fun place => serves place = some n) threads → threads.memory.server = some n

/-- The turn writes the field. -/
def writes : Input → Place → Bool
  | .next _, .start (.publish _) | .next _, .start .unpublish => true
  | _, _ => false

/-- The turn hides a server from `stop`: a `start` writes the field while another thread serves. -/
def Hides (threads : Threads κ) (e : κ × Input) : Prop :=
  writes e.2 (threads.place e.1) = true ∧ ∃ n, Elsewhere e.1 (fun place => serves place = some n) threads

theorem runs_of_serves {place : Place} (h : serves place = some n) : runs place = some n := by
  rcases place with _ | statement | _
  · cases h
  · cases statement <;> first | exact h | cases h
  · cases h

/-- The field holds the server of the thread that has written it, or none when the thread runs none. -/
theorem server_of_writes {i : Input} {place : Place} (h : writes i place = true) :
    (program i place s).2.2.server = runs place := by
  rcases i with _ | _ | raises
  · cases h
  · cases h
  · rcases place with _ | statement | _
    · cases h
    · cases statement <;> first | rfl | cases h
    · cases h

theorem server_program {i : Input} {place : Place} (h : writes i place = false) :
    (program i place s).2.2.server = s.server := by
  rcases i with _ | _ | raises
  · cases place <;> rfl
  · cases place <;> rfl
  · rcases place with _ | statement | statement
    · rfl
    · cases statement with
      | publish _ | unpublish => cases h
      | construct => cases raises <;> rfl
      | clear _ | test _ | select _ | handle _ | resetRequest _ | setShutDown _ | close _ => rfl
    · cases statement with
      | test | getServer | wait _ => simp only [program, stop]; split <;> rfl
      | request _ => rfl

/-- A thread begins to serve a server where it publishes it. -/
theorem serves_program {i : Input} {place : Place} (h : serves (program i place s).2.1 = some n) :
    writes i place = false ∧ serves place = some n ∨ (program i place s).2.2.server = some n := by
  rcases i with _ | _ | raises
  · cases place <;> exact .inl ⟨rfl, h⟩
  · cases place <;> exact .inl ⟨rfl, h⟩
  · rcases place with _ | statement | statement
    · cases h
    · cases statement with
      | publish m => exact .inr h
      | clear m => exact .inl ⟨rfl, h⟩
      | test m | select m | handle m =>
        refine .inl ⟨rfl, ?_⟩
        simp only [program, start] at h
        split at h <;> first | exact h | cases h
      | construct | close _ => cases raises <;> cases h
      | resetRequest _ | setShutDown _ | unpublish => cases h
    · cases statement with
      | test | getServer | wait _ => simp only [program, stop] at h; split at h <;> cases h
      | request _ => cases h

/-- The only turns behind which a server that is being served cannot be stopped. -/
theorem stoppable_step_iff (h : Outlined Fields At Apart threads) (hstoppable : Stoppable threads) (e : κ × Input) :
    Stoppable (step e threads).2 ↔ ¬ Hides threads e := by
  constructor
  · rintro hafter ⟨hwrites, n, k, hk, hserves⟩
    have hserver := hafter n (somewhere_interleave_iff.2 (.inr ⟨k, hk, hserves⟩))
    have hruns := (server_of_writes hwrites).symm.trans hserver
    exact h.2.2 e.1 k hk.symm n hruns (runs_of_serves hserves)
  · intro hkept n hserved
    rcases somewhere_interleave_iff.1 hserved with hserves | helsewhere
    · rcases serves_program hserves with ⟨hwrites, hserves⟩ | hserver
      · exact (server_program hwrites).trans (hstoppable n ⟨e.1, hserves⟩)
      · exact hserver
    · have hwrites : writes e.2 (threads.place e.1) = false :=
        Bool.eq_false_of_not_eq_true fun hwrites => hkept ⟨hwrites, n, helsewhere⟩
      exact (server_program hwrites).trans (hstoppable n ((somewhere_iff e.1).2 (.inr helsewhere)))

omit [DecidableEq κ] in
theorem stoppable_init : Stoppable (init : Threads κ) := by
  rintro n ⟨k, ⟨⟩⟩

/-- In every state of a run every server that is being served can be stopped, iff in no turn of the run a `start` writes
the field while another thread serves. -/
theorem stoppable_run_iff (turns : List (κ × Input)) :
    (∀ before, before <+: turns → Stoppable (final step before (init : Threads κ))) ↔
      ∀ x ∈ transitions step turns (init : Threads κ), ¬ Hides x.before x.event :=
  everywhere_iff (J := Outlined Fields At Apart) (C := fun (threads : Threads κ) e => ¬ Hides threads e) outlined_init
    stoppable_init (fun e _ h => outlined_step h e) (fun e _ h hstoppable => stoppable_step_iff h hstoppable e) turns

end Servers

end Cursus.Socketserver
