/-
A memory of cells, which is what a store is to its clients, and machines that are one. Some steps of a machine
are accesses to the memory and are answered as the memory answers them; the other steps leave it alone.
-/
import Cursus.Run.Machine

namespace Cursus.Run

/-! ## Memory -/

section Memory

variable {α β : Type}

/-- A cell is read, or written when it is there; `put` also makes a cell. -/
inductive Access (α β : Type)
  | read (a : α)
  | write (a : α) (v : β)
  | put (a : α) (v : β)

inductive Answer (β : Type)
  | value (v : β)
  | done
  | missing
  deriving DecidableEq

variable [DecidableEq α]

/-- The memory; a cell that is not there holds nothing. -/
def memory : Step (α → Option β) (Access α β) (Answer β)
  | .read a, m => (match m a with | some v => .value v | none => .missing, m)
  | .write a v, m => if (m a).isSome then (.done, Function.update m a (some v)) else (.missing, m)
  | .put a v, m => (.done, Function.update m a (some v))

end Memory

/-! ## Refinement -/

section Refines

variable {σ ε ω τ α β : Type}

/-- The steps of the run that concern the other machine are, with what they show, a run of it. -/
def Refines (spec : Step τ α β) (shows : Transition σ ε ω → α × β → Prop) (concerns : Transition σ ε ω → Prop) (t : τ)
    (run : List (Transition σ ε ω)) (t' : τ) : Prop :=
  ∃ entries, Log shows concerns run entries ∧ trace spec (entries.map Prod.fst) t = entries ∧
    final spec (entries.map Prod.fst) t = t'

/-- A run refines the other machine when each of its steps is a step of it that shows, or concerns it not; `J` is
what the steps keep, and `C` what all events of the run meet. -/
theorem refines_of_steps {step : Step σ ε ω} {spec : Step τ α β} (view : σ → τ)
    {shows : Transition σ ε ω → α × β → Prop} {concerns : Transition σ ε ω → Prop} {J : σ → Prop} {C : ε → Prop}
    (hJ : ∀ e s, C e → J s → J (step e s).2)
    (hstep : ∀ e s, C e → J s →
      (concerns ⟨s, e, (step e s).1, (step e s).2⟩ ∧ ∃ a,
        shows ⟨s, e, (step e s).1, (step e s).2⟩ (a, (spec a (view s)).1) ∧
          (spec a (view s)).2 = view (step e s).2) ∨
      (¬ concerns ⟨s, e, (step e s).1, (step e s).2⟩ ∧ view (step e s).2 = view s)) :
    ∀ (es : List ε) {s : σ}, J s → (∀ e ∈ es, C e) →
      Refines spec shows concerns (view s) (transitions step es s) (view (final step es s))
  | [], _, _, _ => ⟨[], .nil, rfl, rfl⟩
  | e :: es, s, hs, hes => by
    rw [List.forall_mem_cons] at hes
    obtain ⟨entries, hlog, htrace, hfinal⟩ := refines_of_steps view hJ hstep es (hJ e s hes.1 hs) hes.2
    rw [transitions_cons, final_cons]
    rcases hstep e s hes.1 hs with ⟨hconcerns, a, hshows, hview⟩ | ⟨hnot, hview⟩
    · refine ⟨(a, (spec a (view s)).1) :: entries, .entry hconcerns hshows hlog, ?_, ?_⟩
      · rw [List.map_cons, trace_cons, hview, htrace]
      · rw [List.map_cons, final_cons, hview, hfinal]
    · rw [hview] at htrace hfinal
      exact ⟨entries, .skip hnot hlog, htrace, hfinal⟩

end Refines

end Cursus.Run
