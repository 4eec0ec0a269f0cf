/-
Calls that run as critical sections on shared state, with turns of other threads between two sections. A
pool of threads that make such calls is linearizable to whole calls when every call has one section that
does all it does, and each of its other sections leaves the state alone; what the others may do to the state
meanwhile is a rely.
-/
import Cursus.Run.Linearize

namespace Cursus.Run

variable {κ ε ω σ α β : Type}

/-- A call that has ended, or one that enters a section: the section changes the state, and how the call
goes on depends on the state it has found. -/
inductive Sections (σ α : Type)
  | done (a : α)
  | enter (change : σ → σ) (rest : σ → Sections σ α)

namespace Sections

/-- A call of one section. -/
def atomically (x : σ → α × σ) : Sections σ α := .enter (fun s => (x s).2) fun s => .done (x s).1

/-- Go on behind a call. -/
def bind : Sections σ α → (α → Sections σ β) → Sections σ β
  | .done a, f => f a
  | .enter change rest, f => .enter change fun s => (rest s).bind f

instance : Monad (Sections σ) where
  pure := .done
  bind := Sections.bind

/-- Work behind the last section. -/
def map (f : α → β) (x : Sections σ α) : Sections σ β := x.bind fun a => .done (f a)

/-- The call with no other thread in between. -/
def run : Sections σ α → σ → α × σ
  | .done a, s => (a, s)
  | .enter change rest, s => (rest s).run (change s)

/-! ## One effective section -/

/-- All that is left leaves the state alone and ends with the outcome. -/
def Finishes (outcome : α) : Sections σ α → Prop
  | .done a => a = outcome
  | .enter change rest => ∀ s, change s = s ∧ (rest s).Finishes outcome

/-- From a state on, the call does what `spec` does, in one of its sections; between the sections the state
may change by `rely`. -/
def Performs (rely : σ → σ → Prop) (spec : σ → α × σ) : Sections σ α → σ → Prop
  | .done a, s => ∀ s', rely s s' → spec s' = (a, s')
  | .enter change rest, s => ∀ s', rely s s' →
      (change s' = s' ∧ (rest s').Performs rely spec s') ∨
      (change s' = (spec s').2 ∧ (rest s').Finishes (spec s').1)

section Performs

variable {rely : σ → σ → Prop} {spec : σ → α × σ}

/-- A call still performs what it has to when others have changed the state. -/
theorem Performs.mono (htrans : ∀ s s' s'', rely s s' → rely s' s'' → rely s s'') {x : Sections σ α} {s s' : σ}
    (h : x.Performs rely spec s) (hs : rely s s') : x.Performs rely spec s' := by
  cases x with
  | done a => exact fun s'' hs' => h s'' (htrans s s' s'' hs hs')
  | enter change rest => exact fun s'' hs' => h s'' (htrans s s' s'' hs hs')

theorem performs_atomically (s : σ) : (atomically spec).Performs rely spec s :=
  fun _ _ => .inr ⟨rfl, rfl⟩

theorem Finishes.map {outcome : α} (f : α → β) :
    ∀ {x : Sections σ α}, x.Finishes outcome → (x.map f).Finishes (f outcome)
  | .done _, h => congrArg f h
  | .enter _ _, h => fun s => ⟨(h s).1, Finishes.map f (h s).2⟩

/-- Work behind the last section is part of the call. -/
theorem Performs.map (f : α → β) :
    ∀ {x : Sections σ α} {s : σ}, x.Performs rely spec s →
      (x.map f).Performs rely (fun s => (f (spec s).1, (spec s).2)) s
  | .done a, _, h => fun s' hs => by
    show (f (spec s').1, (spec s').2) = (f a, s')
    rw [h s' hs]
  | .enter _ _, _, h => fun s' hs =>
    (h s' hs).imp (fun hquiet => ⟨hquiet.1, Performs.map f hquiet.2⟩)
      fun heffect => ⟨heffect.1, heffect.2.map f⟩

theorem Finishes.run {outcome : α} : ∀ {x : Sections σ α}, x.Finishes outcome → ∀ s, x.run s = (outcome, s)
  | .done _, h, _ => congrArg (·, _) h
  | .enter change rest, h, s => by
    show (rest s).run (change s) = (outcome, s)
    rw [(h s).1]
    exact (h s).2.run s

/-- With no other thread in between, a call does just what it has to. -/
theorem Performs.run (hrefl : ∀ s, rely s s) :
    ∀ {x : Sections σ α} {s : σ}, x.Performs rely spec s → x.run s = spec s
  | .done _, s, h => (h s (hrefl s)).symm
  | .enter change rest, s, h => by
    show (rest s).run (change s) = spec s
    rcases h s (hrefl s) with ⟨hquiet, hrest⟩ | ⟨hchange, hfinishes⟩
    · rw [hquiet]
      exact hrest.run hrefl
    · rw [hchange]
      exact hfinishes.run _

end Performs

end Sections

/-! ## Threads -/

/-- A thread begins a call, or goes on with the one it is in: through its next section, or to its end. -/
inductive ThreadTurn (ε : Type)
  | call (call : ε)
  | advance

/-- The shared state, and the call that each thread is in. -/
structure Pool (κ σ ε ω : Type) where
  shared : σ
  threads : κ → Option (ε × Sections σ ω)

namespace Pool

def init (s : σ) : Pool κ σ ε ω := ⟨s, fun _ => none⟩

/-- What is seen of a turn of a thread, and what it makes of the thread and of the shared state. A turn of a
thread that is elsewhere does nothing. -/
def turn (body : ε → Sections σ ω) (k : κ) : ThreadTurn ε → Option (ε × Sections σ ω) → σ →
    Option (Seen κ ε ω) × Option (ε × Sections σ ω) × σ
  | .call call, none, s => (some (.begins k call), some (call, body call), s)
  | .call _, some busy, s => (none, some busy, s)
  | .advance, none, s => (none, none, s)
  | .advance, some (_, .done outcome), s => (some (.returns k outcome), none, s)
  | .advance, some (call, .enter change rest), s => (none, some (call, rest s), change s)

/-- A thread is given a turn. -/
def step [DecidableEq κ] (body : ε → Sections σ ω) : Step (Pool κ σ ε ω) (κ × ThreadTurn ε) (Option (Seen κ ε ω)) :=
  fun e s =>
    ((turn body e.1 e.2 (s.threads e.1) s.shared).1,
      { shared := (turn body e.1 e.2 (s.threads e.1) s.shared).2.2
        threads := Function.update s.threads e.1 (turn body e.1 e.2 (s.threads e.1) s.shared).2.1 })

/-- What is seen of a turn. -/
def see (x : Transition (Pool κ σ ε ω) (κ × ThreadTurn ε) (Option (Seen κ ε ω))) : List (Seen κ ε ω) :=
  x.outcome.toList

section Phases

variable (rely : σ → σ → Prop) (spec : Step σ ε ω)

/-- The call of a thread is in the phase. -/
inductive InPhase (s : σ) : Option (ε × Sections σ ω) → Phase ε ω → Prop
  | outside : InPhase s none .outside
  | pending {call : ε} {x : Sections σ ω} : x.Performs rely (spec call) s →
      InPhase s (some (call, x)) (.pending call)
  | effected {call : ε} {x : Sections σ ω} {outcome : ω} : x.Finishes outcome →
      InPhase s (some (call, x)) (.effected outcome)

end Phases

section Linearizes

variable [DecidableEq κ] {rely : σ → σ → Prop} {spec : Step σ ε ω} {body : ε → Sections σ ω}

theorem InPhase.mono (htrans : ∀ s s' s'', rely s s' → rely s' s'' → rely s s'') {s s' : σ} (hs : rely s s')
    {thread : Option (ε × Sections σ ω)} {phase : Phase ε ω} (h : InPhase rely spec s thread phase) :
    InPhase rely spec s' thread phase := by
  cases h with
  | outside => exact .outside
  | pending hperforms => exact .pending (hperforms.mono htrans hs)
  | effected hfinishes => exact .effected hfinishes

/-- A turn of a thread shows some marks, takes effect as they say and moves its phase. -/
theorem InPhase.turn (hrefl : ∀ s, rely s s) (hspec : ∀ call s, rely s (spec call s).2)
    (hbody : ∀ call s, (body call).Performs rely (spec call) s) {s : σ} {thread : Option (ε × Sections σ ω)}
    {phase : Phase ε ω} (h : InPhase rely spec s thread phase) (k : κ) (e : ThreadTurn ε) :
    ∃ marks phase', observed marks = (Pool.turn body k e thread s).1.toList ∧
      (∀ p : κ → Phase ε ω, p k = phase → Moves p marks (Function.update p k phase')) ∧
      Effects spec s marks (Pool.turn body k e thread s).2.2 ∧ rely s (Pool.turn body k e thread s).2.2 ∧
      InPhase rely spec (Pool.turn body k e thread s).2.2 (Pool.turn body k e thread s).2.1 phase' := by
  -- a turn that neither takes effect nor ends the call leaves the thread in its phase
  have hstays : ∀ p : κ → Phase ε ω, p k = phase → Moves p [] (Function.update p k phase) := by
    rintro p rfl
    rw [Function.update_eq_self]
    exact .nil
  cases e with
  | call call =>
    cases h with
    | outside =>
      exact ⟨[.seen (.begins k call)], _, rfl, fun p hp => .begins hp .nil, effects_none rfl, hrefl s,
        .pending (hbody call s)⟩
    | pending hperforms => exact ⟨[], _, rfl, hstays, effects_none rfl, hrefl s, .pending hperforms⟩
    | effected hfinishes => exact ⟨[], _, rfl, hstays, effects_none rfl, hrefl s, .effected hfinishes⟩
  | advance =>
    cases h with
    | outside => exact ⟨[], _, rfl, hstays, effects_none rfl, hrefl s, .outside⟩
    | @pending call x hperforms =>
      cases x with
      | done outcome =>
        -- a call that ends without having taken effect does so now
        exact ⟨ending k call outcome, .outside, rfl, fun p hp => .ending hp,
          effects_one rfl (hperforms s (hrefl s)), hrefl s, .outside⟩
      | enter change rest =>
        rcases hperforms s (hrefl s) with ⟨hquiet, hrest⟩ | ⟨hchange, hfinishes⟩
        · refine ⟨[], _, rfl, hstays, ?_, ?_, ?_⟩
          all_goals simp only [Pool.turn, hquiet]
          · exact effects_none rfl
          · exact hrefl s
          · exact .pending hrest
        · refine ⟨[.effect k call (spec call s).1], .effected (spec call s).1, rfl, fun p hp => .effect hp .nil, ?_, ?_, ?_⟩
          all_goals simp only [Pool.turn, hchange]
          · exact effects_one rfl rfl
          · exact hspec call s
          · exact .effected hfinishes
    | @effected call x outcome hfinishes =>
      cases x with
      | done outcome' =>
        obtain rfl : outcome' = outcome := hfinishes
        exact ⟨[.seen (.returns k outcome')], _, rfl, fun p hp => .returns hp .nil, effects_none rfl, hrefl s, .outside⟩
      | enter change rest =>
        obtain ⟨hquiet, hrest⟩ := hfinishes s
        refine ⟨[], _, rfl, hstays, ?_, ?_, ?_⟩
        all_goals simp only [Pool.turn, hquiet]
        · exact effects_none rfl
        · exact hrefl s
        · exact .effected hrest

/-- A pool of calls with one effective section each is linearizable to whole calls. -/
theorem linearizes (hrefl : ∀ s, rely s s) (htrans : ∀ s s' s'', rely s s' → rely s' s'' → rely s s'')
    (hspec : ∀ call s, rely s (spec call s).2) (hbody : ∀ call s, (body call).Performs rely (spec call) s)
    (turns : List (κ × ThreadTurn ε)) (s : σ) :
    Linearizes spec s (history (step body) see turns (init s)) (final (step body) turns (init s)).shared := by
  refine linearizes_of_simulation Pool.shared (fun s p => ∀ k, InPhase rely spec s.shared (s.threads k) (p k))
    (C := fun _ _ => True) ?_ (t := init s) (fun _ _ => trivial) fun _ => .outside
  rintro ⟨k, e⟩ t p - hsim
  obtain ⟨marks, phase, hseen, hmoves, heffects, hrely, hphase⟩ := (hsim k).turn hrefl hspec hbody k e
  refine ⟨marks, _, hseen, hmoves p rfl, heffects, fun k' => ?_⟩
  by_cases hk : k' = k
  · subst hk
    simpa [step] using hphase
  · simpa [step, hk] using (hsim k').mono htrans hrely

end Linearizes

end Pool

end Cursus.Run
