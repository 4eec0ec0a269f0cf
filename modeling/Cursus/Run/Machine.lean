/-
Machines that take one event at a time and answer each: runs, the traces they leave, invariants of
runs, simulations, what is live after a trace, and logs. A machine keeps a log when every step either
applies one entry that its event and outcome determine, or changes nothing; the state after a run is
then the fold of the entries that the trace shows.
-/
import Mathlib.Tactic

namespace Cursus.Run

variable {σ ε ω : Type}

/-- What a machine answers to an event, and the state it is in then. -/
abbrev Step (σ ε ω : Type) := ε → σ → ω × σ

/-! ## Runs -/

/-- The state after the events. -/
def final (step : Step σ ε ω) : List ε → σ → σ
  | [], s => s
  | e :: es, s => final step es (step e s).2

/-- The events with their outcomes. -/
def trace (step : Step σ ε ω) : List ε → σ → List (ε × ω)
  | [], _ => []
  | e :: es, s => (e, (step e s).1) :: trace step es (step e s).2

section Run

variable (step : Step σ ε ω)

@[simp] theorem final_nil (s : σ) : final step [] s = s := rfl

@[simp] theorem final_cons (e : ε) (es : List ε) (s : σ) :
    final step (e :: es) s = final step es (step e s).2 := rfl

@[simp] theorem trace_nil (s : σ) : trace step [] s = [] := rfl

@[simp] theorem trace_cons (e : ε) (es : List ε) (s : σ) :
    trace step (e :: es) s = (e, (step e s).1) :: trace step es (step e s).2 := rfl

theorem final_append (es es' : List ε) (s : σ) :
    final step (es ++ es') s = final step es' (final step es s) := by
  induction es generalizing s with
  | nil => rfl
  | cons e es ih => exact ih (step e s).2

theorem trace_append (es es' : List ε) (s : σ) :
    trace step (es ++ es') s = trace step es s ++ trace step es' (final step es s) := by
  induction es generalizing s with
  | nil => rfl
  | cons e es ih => simp [ih]

theorem final_snoc (es : List ε) (e : ε) (s : σ) :
    final step (es ++ [e]) s = (step e (final step es s)).2 := by
  rw [final_append]; rfl

theorem trace_snoc (es : List ε) (e : ε) (s : σ) :
    trace step (es ++ [e]) s = trace step es s ++ [(e, (step e (final step es s)).1)] := by
  rw [trace_append]; rfl

end Run

/-! ## Transitions -/

/-- One step of a run, between the states around it. -/
structure Transition (σ ε ω : Type) where
  before : σ
  event : ε
  outcome : ω
  after : σ

/-- The steps of a run. -/
def transitions (step : Step σ ε ω) : List ε → σ → List (Transition σ ε ω)
  | [], _ => []
  | e :: es, s => ⟨s, e, (step e s).1, (step e s).2⟩ :: transitions step es (step e s).2

section Transitions

variable (step : Step σ ε ω)

@[simp] theorem transitions_nil (s : σ) : transitions step [] s = [] := rfl

@[simp] theorem transitions_cons (e : ε) (es : List ε) (s : σ) :
    transitions step (e :: es) s = ⟨s, e, (step e s).1, (step e s).2⟩ :: transitions step es (step e s).2 := rfl

theorem transitions_append (es es' : List ε) (s : σ) :
    transitions step (es ++ es') s = transitions step es s ++ transitions step es' (final step es s) := by
  induction es generalizing s with
  | nil => rfl
  | cons e es ih => simp [ih]

theorem transitions_snoc (es : List ε) (e : ε) (s : σ) :
    transitions step (es ++ [e]) s = transitions step es s ++
      [⟨final step es s, e, (step e (final step es s)).1, (step e (final step es s)).2⟩] := by
  rw [transitions_append]; rfl

/-- A step of a run begins where the run has led so far. -/
theorem exists_of_mem_transitions {es : List ε} {s : σ} {x : Transition σ ε ω} (h : x ∈ transitions step es s) :
    ∃ before after, es = before ++ x.event :: after ∧
      x = ⟨final step before s, x.event, (step x.event (final step before s)).1,
        (step x.event (final step before s)).2⟩ := by
  induction es generalizing s with
  | nil => cases h
  | cons e es ih =>
    rcases List.mem_cons.1 h with rfl | htail
    · exact ⟨[], es, rfl, rfl⟩
    · obtain ⟨before, after, hes, hx⟩ := ih htail
      exact ⟨e :: before, after, congrArg (e :: ·) hes, hx⟩

theorem outcome_of_mem_transitions {es : List ε} {s : σ} {x : Transition σ ε ω} (h : x ∈ transitions step es s) :
    x.outcome = (step x.event x.before).1 := by
  obtain ⟨before, after, -, hx⟩ := exists_of_mem_transitions step h
  rw [hx]

end Transitions

/-! ## Invariants -/

/-- What every step preserves holds after every run. -/
theorem final_invariant {step : Step σ ε ω} {I : σ → Prop} (hstep : ∀ e s, I s → I (step e s).2) :
    ∀ (es : List ε) {s : σ}, I s → I (final step es s)
  | [], _, h => h
  | e :: es, s, h => final_invariant hstep es (hstep e s h)

/-- What every step preserves of the trace so far and the state holds of every run. -/
theorem history_invariant {step : Step σ ε ω} {I : List (ε × ω) → σ → Prop} {s₀ : σ} (h₀ : I [] s₀)
    (hstep : ∀ t e s, I t s → I (t ++ [(e, (step e s).1)]) (step e s).2) (es : List ε) :
    I (trace step es s₀) (final step es s₀) := by
  induction es using List.reverseRecOn with
  | nil => exact h₀
  | append_singleton es e ih =>
    rw [trace_snoc, final_snoc]
    exact hstep _ e _ ih

/-- What every step preserves of the steps so far and the state holds of every run. -/
theorem transitions_invariant {step : Step σ ε ω} {I : List (Transition σ ε ω) → σ → Prop} {s₀ : σ} (h₀ : I [] s₀)
    (hstep : ∀ t e s, I t s → I (t ++ [⟨s, e, (step e s).1, (step e s).2⟩]) (step e s).2) (es : List ε) :
    I (transitions step es s₀) (final step es s₀) := by
  induction es using List.reverseRecOn with
  | nil => exact h₀
  | append_singleton es e ih =>
    rw [transitions_snoc, final_snoc]
    exact hstep _ e _ ih

/-- The same, with what is known of every state of a run. -/
theorem transitions_invariant_of {step : Step σ ε ω} {I : List (Transition σ ε ω) → σ → Prop} {J : σ → Prop} {s₀ : σ}
    (hJ : ∀ es, J (final step es s₀)) (h₀ : I [] s₀)
    (hstep : ∀ t e s, J s → I t s → I (t ++ [⟨s, e, (step e s).1, (step e s).2⟩]) (step e s).2) (es : List ε) :
    I (transitions step es s₀) (final step es s₀) := by
  induction es using List.reverseRecOn with
  | nil => exact h₀
  | append_singleton es e ih =>
    rw [transitions_snoc, final_snoc]
    exact hstep _ e _ (hJ es) ih

/-- A state is where a run has come to at one of its steps, and has stayed since. -/
theorem exists_entered {step : Step σ ε ω} (P : σ → Prop) {s₀ : σ} (h₀ : ¬ P s₀) (es : List ε) (h : P (final step es s₀)) :
    ∃ before e during, es = before ++ e :: during ∧ ¬ P (final step before s₀) ∧
      P (step e (final step before s₀)).2 ∧
      ∀ x ∈ transitions step during (step e (final step before s₀)).2, P x.before := by
  induction es using List.reverseRecOn with
  | nil => exact absurd h h₀
  | append_singleton es e ih =>
    by_cases hes : P (final step es s₀)
    · obtain ⟨before, e', during, rfl, hbefore, hentered, hduring⟩ := ih hes
      refine ⟨before, e', during ++ [e], by simp, hbefore, hentered, ?_⟩
      rw [transitions_snoc, List.forall_mem_append, List.forall_mem_singleton]
      refine ⟨hduring, ?_⟩
      rwa [final_append, final_cons] at hes
    · rw [final_snoc] at h
      exact ⟨es, e, [], rfl, hes, h, nofun⟩

/-- What every step keeps that meets a condition holds after a run whose steps all meet it. -/
theorem final_invariant_of {step : Step σ ε ω} {I : σ → Prop} {C : σ → ε → Prop}
    (hstep : ∀ e s, I s → C s e → I (step e s).2) :
    ∀ (es : List ε) {s : σ}, I s → (∀ x ∈ transitions step es s, C x.before x.event) → I (final step es s)
  | [], _, hI, _ => hI
  | e :: es, s, hI, hC => by
    rw [transitions_cons, List.forall_mem_cons] at hC
    exact final_invariant_of hstep es (hstep e s hI hC.1) hC.2

/-- What a step does whenever it meets a condition, all steps of a run do that meet it. -/
theorem forall_transitions {step : Step σ ε ω} {I : σ → Prop} {C D : σ → ε → Prop}
    (hstep : ∀ e s, I s → C s e → D s e ∧ I (step e s).2) :
    ∀ (es : List ε) {s : σ}, I s → (∀ x ∈ transitions step es s, C x.before x.event) →
      ∀ x ∈ transitions step es s, D x.before x.event
  | [], _, _, _ => nofun
  | e :: es, s, hI, hC => by
    rw [transitions_cons, List.forall_mem_cons] at hC ⊢
    obtain ⟨hD, hI'⟩ := hstep e s hI hC.1
    exact ⟨hD, forall_transitions hstep es hI' hC.2⟩

/-- A run has no more steps of a kind than its first state has left, when each of them uses up some of what is
left. -/
theorem countP_transitions_le {step : Step σ ε ω} {I : σ → Prop} {C : σ → ε → Prop} (p : Transition σ ε ω → Bool)
    (left : σ → ℕ)
    (hstep : ∀ e s, I s → C s e → I (step e s).2 ∧
      left (step e s).2 + (if p ⟨s, e, (step e s).1, (step e s).2⟩ then 1 else 0) ≤ left s) :
    ∀ (es : List ε) {s : σ}, I s → (∀ x ∈ transitions step es s, C x.before x.event) →
      (transitions step es s).countP p ≤ left s
  | [], _, _, _ => Nat.zero_le _
  | e :: es, s, hI, hC => by
    rw [transitions_cons, List.forall_mem_cons] at hC
    obtain ⟨hI', hleft⟩ := hstep e s hI hC.1
    have hrest := countP_transitions_le p left hstep es hI' hC.2
    rw [transitions_cons, List.countP_cons]
    omega

/-- A property that a step keeps just when it meets a condition holds in every state of a run iff every
step of the run meets the condition; `J` is what every step keeps anyway. -/
theorem everywhere_iff {step : Step σ ε ω} {I J : σ → Prop} {C : σ → ε → Prop} {s₀ : σ} (hJ₀ : J s₀) (hI₀ : I s₀)
    (hJ : ∀ e s, J s → J (step e s).2) (hstep : ∀ e s, J s → I s → (I (step e s).2 ↔ C s e)) (es : List ε) :
    (∀ before, before <+: es → I (final step before s₀)) ↔ ∀ x ∈ transitions step es s₀, C x.before x.event := by
  induction es using List.reverseRecOn with
  | nil =>
    refine iff_of_true (fun before hb => ?_) nofun
    rw [List.prefix_nil.1 hb]
    exact hI₀
  | append_singleton es e ih =>
    have hJes := final_invariant hJ es hJ₀
    rw [transitions_snoc, List.forall_mem_append, ← ih, List.forall_mem_singleton]
    constructor
    · intro h
      have hbefore : ∀ before, before <+: es → I (final step before s₀) := fun before hb =>
        h before (hb.trans (List.prefix_append es [e]))
      have hlast := h (es ++ [e]) List.prefix_rfl
      rw [final_snoc, hstep e _ hJes (hbefore es List.prefix_rfl)] at hlast
      exact ⟨hbefore, hlast⟩
    · rintro ⟨hbefore, hlast⟩ before hb
      rcases List.prefix_concat_iff.1 hb with rfl | hb
      · rw [final_snoc]
        exact (hstep e _ hJes (hbefore es List.prefix_rfl)).2 hlast
      · exact hbefore before hb

/-! ## Simulation -/

/-- A machine whose every step is one step of another machine, seen through a view of the states and of
the traces, has its runs as runs of the other one. -/
theorem simulation {σ' ε' ω' : Type} {step : Step σ ε ω} {step' : Step σ' ε' ω'} {view : σ → σ'}
    {see : ε × ω → ε' × ω'}
    (hstep : ∀ e s, step' (see (e, (step e s).1)).1 (view s) =
      ((see (e, (step e s).1)).2, view (step e s).2)) :
    ∀ (es : List ε) (s : σ), ∃ es', trace step' es' (view s) = (trace step es s).map see ∧
      final step' es' (view s) = view (final step es s)
  | [], s => ⟨[], rfl, rfl⟩
  | e :: es, s => by
    obtain ⟨es', htrace, hfinal⟩ := simulation hstep es (step e s).2
    refine ⟨(see (e, (step e s).1)).1 :: es', ?_, ?_⟩
    · rw [trace_cons, hstep, htrace]
      rfl
    · rw [final_cons, hstep, hfinal]
      rfl

/-! ## Lifetimes -/

section Live

variable {α β : Type} {begins ends : α → Prop}

/-- Something has begun and not ended since. -/
def Live (begins ends : α → Prop) (t : List α) : Prop :=
  ∃ before x after, t = before ++ x :: after ∧ begins x ∧ ∀ y ∈ after, ¬ ends y

theorem not_live_nil : ¬ Live begins ends [] := by
  rintro ⟨before, x, after, h, -⟩
  simp at h

theorem live_snoc_iff {t : List α} {y : α} :
    Live begins ends (t ++ [y]) ↔ begins y ∨ Live begins ends t ∧ ¬ ends y := by
  constructor
  · rintro ⟨before, x, after, h, hx, hafter⟩
    rcases List.eq_nil_or_concat after with rfl | ⟨after, z, rfl⟩
    · obtain ⟨-, hy⟩ := List.append_inj' h rfl
      cases hy
      exact .inl hx
    · rw [List.concat_eq_append, ← List.cons_append, ← List.append_assoc] at h
      obtain ⟨ht, hy⟩ := List.append_inj' h rfl
      cases hy
      rw [List.concat_eq_append, List.forall_mem_append] at hafter
      exact .inr ⟨⟨before, x, after, ht, hx, hafter.1⟩, hafter.2 y (List.mem_singleton_self y)⟩
  · rintro (hy | ⟨⟨before, x, after, rfl, hx, hafter⟩, hy⟩)
    · exact ⟨t, y, [], rfl, hy, nofun⟩
    · refine ⟨before, x, after ++ [y], by simp, hx, ?_⟩
      rw [List.forall_mem_append]
      exact ⟨hafter, by simpa using hy⟩

theorem Live.imp {begins' ends' : α → Prop} {t : List α} (hbegins : ∀ x, begins x → begins' x)
    (hends : ∀ x, ends' x → ends x) (h : Live begins ends t) : Live begins' ends' t := by
  obtain ⟨before, x, after, ht, hx, hafter⟩ := h
  exact ⟨before, x, after, ht, hbegins x hx, fun y hy hy' => hafter y hy (hends y hy')⟩

theorem live_map_iff {begins ends : β → Prop} {f : α → β} {t : List α} :
    Live begins ends (t.map f) ↔ Live (fun x => begins (f x)) (fun x => ends (f x)) t := by
  induction t using List.reverseRecOn with
  | nil => exact iff_of_false not_live_nil not_live_nil
  | append_singleton t y ih => rw [List.map_append, List.map_singleton, live_snoc_iff, live_snoc_iff, ih]

end Live

section Since

variable {α : Type} {P : α → Prop} {Q Q' : List α → Prop}

/-- What holds of the rest of a history behind everything of a kind. -/
def Since (P : α → Prop) (Q : List α → Prop) (t : List α) : Prop :=
  ∀ before x after, t = before ++ x :: after → P x → Q after

theorem since_nil : Since P Q [] := by
  rintro before x after h
  simp at h

theorem since_snoc_iff {t : List α} {y : α} :
    Since P Q (t ++ [y]) ↔ (P y → Q []) ∧ Since P (fun after => Q (after ++ [y])) t := by
  constructor
  · intro h
    constructor
    · exact h t y [] rfl
    · rintro before x after rfl
      exact h before x (after ++ [y]) (by simp)
  · rintro ⟨hy, ht⟩ before x after h hx
    rcases List.eq_nil_or_concat after with rfl | ⟨after, z, rfl⟩
    · obtain ⟨-, hyx⟩ := List.append_inj' h rfl
      cases hyx
      exact hy hx
    · rw [List.concat_eq_append, ← List.cons_append, ← List.append_assoc] at h
      obtain ⟨rfl, hyz⟩ := List.append_inj' h rfl
      cases hyz
      rw [List.concat_eq_append]
      exact ht before x after rfl hx

theorem Since.imp {t : List α} (hQ : ∀ after, Q after → Q' after) (h : Since P Q t) : Since P Q' t :=
  fun before x after ht hx => hQ after (h before x after ht hx)

end Since

/-! ## Logs -/

/-- The entries that a trace shows: some items show one, and all others are not `acknowledged`. -/
inductive Log {α β : Type} (shows : α → β → Prop) (acknowledged : α → Prop) : List α → List β → Prop
  | nil : Log shows acknowledged [] []
  | entry {a : α} {b : β} {as : List α} {bs : List β} :
      acknowledged a → shows a b → Log shows acknowledged as bs → Log shows acknowledged (a :: as) (b :: bs)
  | skip {a : α} {as : List α} {bs : List β} :
      ¬ acknowledged a → Log shows acknowledged as bs → Log shows acknowledged (a :: as) bs

section Log

variable {α β τ : Type} {shows : α → β → Prop} {acknowledged : α → Prop}

/-- A trace shows one log only when an item shows one entry only. -/
theorem Log.unique (hshows : ∀ a b b', shows a b → shows a b' → b = b') :
    ∀ {as : List α} {bs bs' : List β}, Log shows acknowledged as bs → Log shows acknowledged as bs' → bs = bs'
  | [], _, _, .nil, .nil => rfl
  | _ :: _, _, _, .entry _ hb h, .entry _ hb' h' => by rw [hshows _ _ _ hb hb', h.unique hshows h']
  | _ :: _, _, _, .entry ha _ _, .skip hn _ => absurd ha hn
  | _ :: _, _, _, .skip hn _, .entry ha _ _ => absurd ha hn
  | _ :: _, _, _, .skip _ h, .skip _ h' => h.unique hshows h'

theorem Log.imp {shows' : α → β → Prop} (h : ∀ a b, shows a b → shows' a b) {as : List α} {bs : List β}
    (hlog : Log shows acknowledged as bs) : Log shows' acknowledged as bs := by
  induction hlog with
  | nil => exact .nil
  | entry ha hb _ ih => exact .entry ha (h _ _ hb) ih
  | skip ha _ ih => exact .skip ha ih

/-- What holds of whatever an item shows holds of every entry. -/
theorem Log.forall_mem {Q : β → Prop} (h : ∀ a b, shows a b → Q b) {as : List α} {bs : List β}
    (hlog : Log shows acknowledged as bs) : ∀ b ∈ bs, Q b := by
  induction hlog with
  | nil => simp
  | entry _ hb _ ih => exact List.forall_mem_cons.2 ⟨h _ _ hb, ih⟩
  | skip _ _ ih => exact ih

/-- A machine whose steps apply the entry they show, or change nothing, as long as they keep `J`, ends in the fold of
its log. -/
theorem final_eq_foldl_of {step : Step σ ε ω} {shows : ε × ω → β → Prop} {acknowledged : ε × ω → Prop}
    (view : σ → τ) {apply : τ → β → τ} {J : σ → Prop} (hJ : ∀ e s, J s → J (step e s).2)
    (hstep : ∀ e s, J s →
      (acknowledged (e, (step e s).1) ∧ ∃ b, shows (e, (step e s).1) b ∧ view (step e s).2 = apply (view s) b) ∨
      (¬ acknowledged (e, (step e s).1) ∧ view (step e s).2 = view s)) :
    ∀ (es : List ε) {s : σ}, J s → ∃ log, Log shows acknowledged (trace step es s) log ∧
      view (final step es s) = log.foldl apply (view s)
  | [], _, _ => ⟨[], .nil, rfl⟩
  | e :: es, s, hs => by
    obtain ⟨log, hlog, hfold⟩ := final_eq_foldl_of view hJ hstep es (hJ e s hs)
    rcases hstep e s hs with ⟨ha, b, hb, hv⟩ | ⟨hn, hv⟩
    · exact ⟨b :: log, .entry ha hb hlog, by rw [final_cons, hfold, hv, List.foldl_cons]⟩
    · exact ⟨log, .skip hn hlog, by rw [final_cons, hfold, hv]⟩

theorem final_eq_foldl {step : Step σ ε ω} {shows : ε × ω → β → Prop} {acknowledged : ε × ω → Prop}
    {view : σ → τ} {apply : τ → β → τ}
    (hstep : ∀ e s,
      (acknowledged (e, (step e s).1) ∧
        ∃ b, shows (e, (step e s).1) b ∧ view (step e s).2 = apply (view s) b) ∨
      (¬ acknowledged (e, (step e s).1) ∧ view (step e s).2 = view s)) (es : List ε) (s : σ) :
    ∃ log, Log shows acknowledged (trace step es s) log ∧ view (final step es s) = log.foldl apply (view s) :=
  final_eq_foldl_of view (J := fun _ => True) (fun _ _ _ => trivial) (fun e s _ => hstep e s) es trivial

end Log

end Cursus.Run
