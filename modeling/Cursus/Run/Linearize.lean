/-
Calls of threads that overlap. A history of beginnings and returns is linearizable when every call can be
given one moment between its beginning and its return at which it takes effect, such that the calls, in the
order of their effects, are a run of a machine that takes one whole call at a time.
-/
import Cursus.Run.Machine

namespace Cursus.Run

variable {κ ε ω σ : Type}

/-- What is seen of a thread: a call begins, or returns. -/
inductive Seen (κ ε ω : Type)
  | begins (k : κ) (call : ε)
  | returns (k : κ) (outcome : ω)

/-- The same, and the moments at which calls take effect. -/
inductive Mark (κ ε ω : Type)
  | seen (x : Seen κ ε ω)
  | effect (k : κ) (call : ε) (outcome : ω)

/-- Where a thread is: between two calls, before the effect of a call, or behind it. -/
inductive Phase (ε ω : Type)
  | outside
  | pending (call : ε)
  | effected (outcome : ω)

/-- What is seen of marks. -/
def observed : List (Mark κ ε ω) → List (Seen κ ε ω)
  | [] => []
  | .seen x :: marks => x :: observed marks
  | .effect _ _ _ :: marks => observed marks

/-- The calls that take effect, in this order. -/
def effects : List (Mark κ ε ω) → List (ε × ω)
  | [] => []
  | .seen _ :: marks => effects marks
  | .effect _ call outcome :: marks => (call, outcome) :: effects marks

/-- A call that has begun takes effect and returns. -/
def ending (k : κ) (call : ε) (outcome : ω) : List (Mark κ ε ω) := [.effect k call outcome, .seen (.returns k outcome)]

/-- A call begins, takes effect and returns at once. -/
def instant (k : κ) (call : ε) (outcome : ω) : List (Mark κ ε ω) := .seen (.begins k call) :: ending k call outcome

theorem observed_append (marks marks' : List (Mark κ ε ω)) :
    observed (marks ++ marks') = observed marks ++ observed marks' := by
  induction marks with
  | nil => rfl
  | cons m marks ih => cases m <;> simp [observed, ih]

theorem effects_append (marks marks' : List (Mark κ ε ω)) :
    effects (marks ++ marks') = effects marks ++ effects marks' := by
  induction marks with
  | nil => rfl
  | cons m marks ih => cases m <;> simp [effects, ih]

section Moves

variable [DecidableEq κ]

/-- The marks take every thread through its calls: each begins, takes effect and returns what the effect
gave, before the thread begins the next one. -/
inductive Moves : (κ → Phase ε ω) → List (Mark κ ε ω) → (κ → Phase ε ω) → Prop
  | nil {p : κ → Phase ε ω} : Moves p [] p
  | begins {p q : κ → Phase ε ω} {k : κ} {call : ε} {marks : List (Mark κ ε ω)} : p k = .outside →
      Moves (Function.update p k (.pending call)) marks q → Moves p (.seen (.begins k call) :: marks) q
  | effect {p q : κ → Phase ε ω} {k : κ} {call : ε} {outcome : ω} {marks : List (Mark κ ε ω)} :
      p k = .pending call → Moves (Function.update p k (.effected outcome)) marks q →
      Moves p (.effect k call outcome :: marks) q
  | returns {p q : κ → Phase ε ω} {k : κ} {outcome : ω} {marks : List (Mark κ ε ω)} : p k = .effected outcome →
      Moves (Function.update p k .outside) marks q → Moves p (.seen (.returns k outcome) :: marks) q

theorem Moves.append {p q r : κ → Phase ε ω} {marks marks' : List (Mark κ ε ω)} (h : Moves p marks q)
    (h' : Moves q marks' r) : Moves p (marks ++ marks') r := by
  induction h with
  | nil => exact h'
  | begins hk _ ih => exact .begins hk (ih h')
  | effect hk _ ih => exact .effect hk (ih h')
  | returns hk _ ih => exact .returns hk (ih h')

theorem Moves.ending {p : κ → Phase ε ω} {k : κ} {call : ε} {outcome : ω} (hk : p k = .pending call) :
    Moves p (ending k call outcome) (Function.update p k .outside) := by
  have hmoves : Moves p (Run.ending k call outcome) _ :=
    .effect hk (.returns (Function.update_self ..) .nil)
  rwa [Function.update_idem] at hmoves

theorem Moves.instant {p : κ → Phase ε ω} {k : κ} {call : ε} {outcome : ω} (hk : p k = .outside) :
    Moves p (instant k call outcome) p := by
  have hmoves : Moves p (Run.instant k call outcome) _ := .begins hk (.ending (Function.update_self ..))
  rwa [Function.update_idem, ← hk, Function.update_eq_self] at hmoves

end Moves

/-! ## Effects -/

/-- The calls, in the order of their effects, are a run of the machine. -/
def Effects (step : Step σ ε ω) (s : σ) (marks : List (Mark κ ε ω)) (s' : σ) : Prop :=
  trace step ((effects marks).map Prod.fst) s = effects marks ∧ final step ((effects marks).map Prod.fst) s = s'

section Effects

variable {step : Step σ ε ω} {s s' s'' : σ} {marks marks' : List (Mark κ ε ω)}

theorem effects_none (h : effects marks = []) : Effects step s marks s := by
  rw [Effects, h]
  exact ⟨rfl, rfl⟩

theorem effects_one {call : ε} {outcome : ω} (h : effects marks = [(call, outcome)])
    (hstep : step call s = (outcome, s')) : Effects step s marks s' := by
  rw [Effects, h]
  simp [hstep]

theorem Effects.append (h : Effects step s marks s') (h' : Effects step s' marks' s'') :
    Effects step s (marks ++ marks') s'' := by
  obtain ⟨htrace, hfinal⟩ := h
  obtain ⟨htrace', hfinal'⟩ := h'
  rw [Effects, effects_append, List.map_append, trace_append, final_append, hfinal, htrace, htrace']
  exact ⟨rfl, hfinal'⟩

end Effects

/-! ## Linearizability -/

/-- The history is that of overlapping calls which take effect one after the other, from one state to the
other. -/
def Linearizes [DecidableEq κ] (step : Step σ ε ω) (s : σ) (history : List (Seen κ ε ω)) (s' : σ) : Prop :=
  ∃ marks, observed marks = history ∧ (∃ p, Moves (fun _ => .outside) marks p) ∧ Effects step s marks s'

section Simulation

variable {τ σ' ω' : Type} [DecidableEq κ] {machine : Step τ σ' ω'} {step : Step σ ε ω}

/-- What is seen of a run. -/
def history (machine : Step τ σ' ω') (see : Transition τ σ' ω' → List (Seen κ ε ω)) (turns : List σ') (t : τ) :
    List (Seen κ ε ω) :=
  (transitions machine turns t).flatMap see

/-- A run is linearizable when each of its turns moves the threads and takes effect as some marks say that
show what is seen of the turn; `sim` relates the states to the phases of the threads, and `C` is what all
turns of the run meet. -/
theorem linearizes_of_simulation {see : Transition τ σ' ω' → List (Seen κ ε ω)} (view : τ → σ)
    (sim : τ → (κ → Phase ε ω) → Prop) {C : τ → σ' → Prop}
    (hturn : ∀ e t p, C t e → sim t p → ∃ marks q,
      observed marks = see ⟨t, e, (machine e t).1, (machine e t).2⟩ ∧ Moves p marks q ∧
        Effects step (view t) marks (view (machine e t).2) ∧ sim (machine e t).2 q)
    {turns : List σ'} {t : τ} (hC : ∀ x ∈ transitions machine turns t, C x.before x.event)
    (ht : sim t fun _ => .outside) :
    Linearizes step (view t) (history machine see turns t) (view (final machine turns t)) := by
  have hrun : ∀ (turns : List σ') (t : τ) (p : κ → Phase ε ω),
      (∀ x ∈ transitions machine turns t, C x.before x.event) → sim t p → ∃ marks q,
        observed marks = history machine see turns t ∧ Moves p marks q ∧
          Effects step (view t) marks (view (final machine turns t)) := by
    intro turns
    induction turns with
    | nil => exact fun t p _ _ => ⟨[], p, rfl, .nil, effects_none rfl⟩
    | cons e turns ih =>
      intro t p hC ht
      rw [transitions_cons, List.forall_mem_cons] at hC
      obtain ⟨marks, q, hseen, hmoves, heffects, hsim⟩ := hturn e t p hC.1 ht
      obtain ⟨marks', r, hseen', hmoves', heffects'⟩ := ih _ q hC.2 hsim
      refine ⟨marks ++ marks', r, ?_, hmoves.append hmoves', heffects.append heffects'⟩
      rw [observed_append, hseen, hseen']
      rfl
  obtain ⟨marks, q, hseen, hmoves, heffects⟩ := hrun turns t _ hC ht
  exact ⟨marks, hseen, ⟨q, hmoves⟩, heffects⟩

end Simulation

/-! ## Refinement -/

section Map

variable {ε' ω' τ : Type} (call : ε → ε') (out : ω → ω')

def Seen.map : Seen κ ε ω → Seen κ ε' ω'
  | .begins k e => .begins k (call e)
  | .returns k o => .returns k (out o)

def Mark.map : Mark κ ε ω → Mark κ ε' ω'
  | .seen x => .seen (x.map call out)
  | .effect k e o => .effect k (call e) (out o)

def Phase.map : Phase ε ω → Phase ε' ω'
  | .outside => .outside
  | .pending e => .pending (call e)
  | .effected o => .effected (out o)

theorem observed_map (marks : List (Mark κ ε ω)) :
    observed (marks.map (Mark.map call out)) = (observed marks).map (Seen.map call out) := by
  induction marks with
  | nil => rfl
  | cons m marks ih => cases m <;> simp [observed, Mark.map, ih]

theorem effects_map (marks : List (Mark κ ε ω)) :
    effects (marks.map (Mark.map call out)) = (effects marks).map (Prod.map call out) := by
  induction marks with
  | nil => rfl
  | cons m marks ih => cases m <;> simp [effects, Mark.map, ih]

theorem Moves.map [DecidableEq κ] {p q : κ → Phase ε ω} {marks : List (Mark κ ε ω)} (h : Moves p marks q) :
    Moves (fun k => (p k).map call out) (marks.map (Mark.map call out)) fun k => (q k).map call out := by
  have hupdate : ∀ (p : κ → Phase ε ω) (k : κ) (phase : Phase ε ω),
      (fun k' => (Function.update p k phase k').map call out) =
        Function.update (fun k' => (p k').map call out) k (phase.map call out) := fun p k phase =>
    Function.comp_update (Phase.map call out) p k phase
  induction h with
  | nil => exact .nil
  | begins hk _ ih =>
    rw [hupdate] at ih
    exact .begins (by rw [hk]; rfl) ih
  | effect hk _ ih =>
    rw [hupdate] at ih
    exact .effect (by rw [hk]; rfl) ih
  | returns hk _ ih =>
    rw [hupdate] at ih
    exact .returns (by rw [hk]; rfl) ih

variable {call out} {step : Step σ ε ω} {spec : Step τ ε' ω'} {view : σ → τ} {J : σ → Prop}

/-- Calls that are calls of another machine, seen through views, are a run of it. -/
theorem run_map (hJ : ∀ e s, J s → J (step e s).2)
    (hstep : ∀ e s, J s → spec (call e) (view s) = (out (step e s).1, view (step e s).2)) :
    ∀ (es : List ε) {s : σ}, J s → trace spec (es.map call) (view s) = (trace step es s).map (Prod.map call out) ∧
      final spec (es.map call) (view s) = view (final step es s)
  | [], _, _ => ⟨rfl, rfl⟩
  | e :: es, s, hs => by
    obtain ⟨htrace, hfinal⟩ := run_map hJ hstep es (hJ e s hs)
    rw [List.map_cons, trace_cons, trace_cons, final_cons, final_cons, hstep e s hs, List.map_cons]
    exact ⟨by rw [htrace]; rfl, hfinal⟩

/-- What is linearizable to a machine is linearizable to the machines that it refines. -/
theorem Linearizes.map [DecidableEq κ] (hJ : ∀ e s, J s → J (step e s).2)
    (hstep : ∀ e s, J s → spec (call e) (view s) = (out (step e s).1, view (step e s).2)) {s s' : σ}
    {history : List (Seen κ ε ω)} (h : Linearizes step s history s') (hs : J s) :
    Linearizes spec (view s) (history.map (Seen.map call out)) (view s') := by
  obtain ⟨marks, hseen, ⟨p, hmoves⟩, htrace, hfinal⟩ := h
  obtain ⟨htrace', hfinal'⟩ := run_map hJ hstep ((effects marks).map Prod.fst) hs
  have hcalls : (effects (marks.map (Mark.map call out))).map Prod.fst = ((effects marks).map Prod.fst).map call := by
    rw [effects_map, List.map_map, List.map_map]
    rfl
  refine ⟨marks.map (Mark.map call out), ?_, ⟨_, hmoves.map call out⟩, ?_, ?_⟩
  · rw [observed_map, hseen]
  · rw [hcalls, htrace', htrace, effects_map]
  · rw [hcalls, hfinal', hfinal]

end Map

end Cursus.Run
