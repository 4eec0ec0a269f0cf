/-
Events that commute, and events that may be repeated. A run in which neighbours that commute change places,
and events that may be repeated come several times, ends in the same state and has the same outcomes; events
that commute with all others may also be left out.
-/
import Cursus.Run.Machine

namespace Cursus.Run

variable {σ ε ω ι : Type}

section Commute

variable (step : Step σ ε ω)

/-- In either order the events have the outcomes that each has alone, and lead to the same state. -/
def Commutes (e f : ε) : Prop := ∀ s,
  (step f (step e s).2).1 = (step f s).1 ∧ (step e (step f s).2).1 = (step e s).1 ∧
    (step f (step e s).2).2 = (step e (step f s).2).2

/-- A second time at once, the event has the same outcome and leaves the state alone. -/
def Repeats (e : ε) : Prop := ∀ s, step e (step e s).2 = step e s

end Commute

/-- The second run is the first one with neighbours swapped and events repeated at once. -/
inductive Delivers (swaps : ε → ε → Prop) (repeats : ε → Prop) : List ε → List ε → Prop
  | refl {es : List ε} : Delivers swaps repeats es es
  | cons {e : ε} {es es' : List ε} : Delivers swaps repeats es es' → Delivers swaps repeats (e :: es) (e :: es')
  | swap {e f : ε} {es : List ε} : swaps e f → Delivers swaps repeats (e :: f :: es) (f :: e :: es)
  | again {e : ε} {es : List ε} : repeats e → Delivers swaps repeats (e :: es) (e :: e :: es)
  | trans {es es' es'' : List ε} : Delivers swaps repeats es es' → Delivers swaps repeats es' es'' →
      Delivers swaps repeats es es''

section Delivers

variable {step : Step σ ε ω} {swaps : ε → ε → Prop} {repeats : ε → Prop}

/-- Swapping and repeating changes neither the state in the end nor what is answered. -/
theorem Delivers.same (hswaps : ∀ e f, swaps e f → Commutes step e f) (hrepeats : ∀ e, repeats e → Repeats step e)
    {es es' : List ε} (h : Delivers swaps repeats es es') (s : σ) :
    final step es' s = final step es s ∧ ∀ x, x ∈ trace step es' s ↔ x ∈ trace step es s := by
  induction h generalizing s with
  | refl => exact ⟨rfl, fun _ => Iff.rfl⟩
  | cons _ ih =>
    obtain ⟨hfinal, htrace⟩ := ih (step _ s).2
    refine ⟨hfinal, fun x => ?_⟩
    rw [trace_cons, trace_cons, List.mem_cons, List.mem_cons, htrace]
  | @swap e f es hef =>
    obtain ⟨hf, he, hstate⟩ := hswaps e f hef s
    refine ⟨?_, fun x => ?_⟩
    · simp only [final_cons, hstate]
    · simp only [trace_cons, List.mem_cons, hf, he, hstate]
      exact or_left_comm
  | @again e es he =>
    have hsame := hrepeats e he s
    refine ⟨?_, fun x => ?_⟩
    · simp only [final_cons, hsame]
    · simp only [trace_cons, List.mem_cons, hsame, or_self_left]
  | trans _ _ ih ih' =>
    obtain ⟨hfinal, htrace⟩ := ih s
    obtain ⟨hfinal', htrace'⟩ := ih' s
    exact ⟨hfinal'.trans hfinal, fun x => (htrace' x).trans (htrace x)⟩

end Delivers

/-- Events that carry a label, which tells them apart and does nothing. -/
def labelled (step : Step σ ε ω) : Step σ (ι × ε) ω := fun e s => step e.2 s

/-! ## Leaving events out -/

section Filter

variable {step : Step σ ε ω}

/-- An event in front of events it commutes with does not show in their outcomes. -/
theorem trace_of_commutes {e : ε} : ∀ {es : List ε} (_ : ∀ f ∈ es, Commutes step e f) (s : σ),
    trace step es (step e s).2 = trace step es s
  | [], _, _ => rfl
  | f :: es, h, s => by
    obtain ⟨hf, -, hstate⟩ := h f List.mem_cons_self s
    rw [trace_cons, trace_cons, hf, hstate, trace_of_commutes fun g hg => h g (List.mem_cons_of_mem f hg)]

/-- Events that commute with all events that are kept may be left out. -/
theorem trace_filter (keep : ε → Bool) : ∀ {es : List ε}
    (_ : ∀ e ∈ es, ∀ f ∈ es, keep e = false → keep f = true → Commutes step e f) (s : σ),
    (trace step es s).filter (fun x => keep x.1) = trace step (es.filter keep) s
  | [], _, _ => rfl
  | e :: es, h, s => by
    have ih := trace_filter keep (fun f hf g hg => h f (List.mem_cons_of_mem e hf) g (List.mem_cons_of_mem e hg))
      (step e s).2
    cases he : keep e with
    | true => simp only [trace_cons, List.filter_cons, he, if_true, ih]
    | false =>
      have hcommutes : ∀ f ∈ es.filter keep, Commutes step e f := by
        intro f hf
        obtain ⟨hmem, hkeep⟩ := List.mem_filter.1 hf
        exact h e List.mem_cons_self f (List.mem_cons_of_mem e hmem) he hkeep
      rw [trace_cons, List.filter_cons_of_neg (by simp [he]), List.filter_cons_of_neg (by simp [he]), ih,
        trace_of_commutes hcommutes]

end Filter

end Cursus.Run
