/-
Threads over one memory, each at a place of its program; a turn lets one thread do what it does at its place. An
outline of the program, which annotates its places and relates the places of two threads, holds throughout a run when a
turn establishes it where the thread goes to and does not interfere with the other threads. What a thread's places have
left bounds how many turns of a kind it has.
-/
import Cursus.Run.Machine

namespace Cursus.Run

variable {κ σ ℓ ι ω : Type}

/-- The memory, and where every thread is. -/
structure Places (κ σ ℓ : Type) where
  memory : σ
  place : κ → ℓ

/-- Some thread is at a place of a kind. -/
def Somewhere (Q : ℓ → Prop) (s : Places κ σ ℓ) : Prop := ∃ k, Q (s.place k)

instance [Fintype κ] {Q : ℓ → Prop} [DecidablePred Q] {s : Places κ σ ℓ} : Decidable (Somewhere Q s) :=
  inferInstanceAs (Decidable (∃ k, Q (s.place k)))

/-- Another thread is at a place of a kind. -/
def Elsewhere (k : κ) (Q : ℓ → Prop) (s : Places κ σ ℓ) : Prop := ∃ k', k' ≠ k ∧ Q (s.place k')

theorem somewhere_iff (k : κ) {Q : ℓ → Prop} {s : Places κ σ ℓ} : Somewhere Q s ↔ Q (s.place k) ∨ Elsewhere k Q s := by
  constructor
  · rintro ⟨k', hk'⟩
    by_cases h : k' = k
    · exact .inl (h ▸ hk')
    · exact .inr ⟨k', h, hk'⟩
  · rintro (hk | ⟨k', -, hk'⟩)
    · exact ⟨k, hk⟩
    · exact ⟨k', hk'⟩

/-- What a thread does at a place, with what the surroundings give it: its answer, where it goes, and the memory it
leaves. -/
abbrev Program (σ ℓ ι ω : Type) := ι → ℓ → σ → ω × ℓ × σ

section Interleave

variable [DecidableEq κ]

/-- The turn of a thread. -/
def interleave (program : Program σ ℓ ι ω) : Step (Places κ σ ℓ) (κ × ι) ω := fun e s =>
  let (answer, place, memory) := program e.2 (s.place e.1) s.memory
  (answer, ⟨memory, Function.update s.place e.1 place⟩)

variable {program : Program σ ℓ ι ω} {s : Places κ σ ℓ} {e : κ × ι} {k : κ}

@[simp] theorem memory_interleave :
    (interleave program e s).2.memory = (program e.2 (s.place e.1) s.memory).2.2 := rfl

@[simp] theorem place_interleave_self :
    (interleave program e s).2.place e.1 = (program e.2 (s.place e.1) s.memory).2.1 :=
  Function.update_self ..

theorem place_interleave_of_ne (h : k ≠ e.1) : (interleave program e s).2.place k = s.place k :=
  Function.update_of_ne h ..

/-- A turn in which a thread stays where it is and leaves the memory alone. -/
theorem interleave_of_stays (h : (program e.2 (s.place e.1) s.memory).2 = (s.place e.1, s.memory)) :
    (interleave program e s).2 = s := by
  show Places.mk (program e.2 (s.place e.1) s.memory).2.2
    (Function.update s.place e.1 (program e.2 (s.place e.1) s.memory).2.1) = s
  rw [h, Function.update_eq_self]

/-- What a turn makes true of a thread: its own turn moves it, another one only changes the memory. -/
theorem interleave_at {B : σ → ℓ → Prop} (own : e.1 = k → B (program e.2 (s.place k) s.memory).2.2
      (program e.2 (s.place k) s.memory).2.1)
    (others : e.1 ≠ k → B (program e.2 (s.place e.1) s.memory).2.2 (s.place k)) :
    B (interleave program e s).2.memory ((interleave program e s).2.place k) := by
  by_cases hk : e.1 = k
  · have := own hk
    subst hk
    rwa [place_interleave_self, memory_interleave]
  · rw [place_interleave_of_ne (Ne.symm hk), memory_interleave]
    exact others hk

/-- Some thread is behind a turn at a place of a kind: the one that has moved there, or another one that was there. -/
theorem somewhere_interleave_iff {Q : ℓ → Prop} :
    Somewhere Q (interleave program e s).2 ↔ Q (program e.2 (s.place e.1) s.memory).2.1 ∨ Elsewhere e.1 Q s := by
  constructor
  · rintro ⟨k, hk⟩
    by_cases h : k = e.1
    · subst h
      rw [place_interleave_self] at hk
      exact .inl hk
    · rw [place_interleave_of_ne h] at hk
      exact .inr ⟨k, h, hk⟩
  · rintro (hk | ⟨k, h, hk⟩)
    · refine ⟨e.1, ?_⟩
      rwa [place_interleave_self]
    · refine ⟨k, ?_⟩
      rwa [place_interleave_of_ne h]

/-- What the memory always satisfies, an annotation of the places, and what holds between the places of two threads. -/
def Outlined (G : σ → Prop) (A : σ → ℓ → Prop) (R : ℓ → ℓ → Prop) (s : Places κ σ ℓ) : Prop :=
  G s.memory ∧ (∀ k, A s.memory (s.place k)) ∧ ∀ k k', k ≠ k' → R (s.place k) (s.place k')

/-- A turn keeps an outline that is right for the thread it moves, and with which it does not interfere for another
one. -/
theorem outlined_interleave_of {G : σ → Prop} {A : σ → ℓ → Prop} {R : ℓ → ℓ → Prop} (symm : ∀ l l', R l l' → R l' l)
    (h : Outlined G A R s) (own : G (program e.2 (s.place e.1) s.memory).2.2 ∧
      A (program e.2 (s.place e.1) s.memory).2.2 (program e.2 (s.place e.1) s.memory).2.1)
    (others : ∀ k, e.1 ≠ k → A (program e.2 (s.place e.1) s.memory).2.2 (s.place k) ∧
      R (program e.2 (s.place e.1) s.memory).2.1 (s.place k)) : Outlined G A R (interleave program e s).2 := by
  refine ⟨own.1, fun k => interleave_at (fun hk => ?_) fun hk => (others k hk).1, fun k k' hk => ?_⟩
  · subst hk
    exact own.2
  · by_cases he : e.1 = k
    · subst he
      rw [place_interleave_self, place_interleave_of_ne hk.symm]
      exact (others k' hk).2
    · rw [place_interleave_of_ne (Ne.symm he)]
      by_cases he' : e.1 = k'
      · subst he'
        rw [place_interleave_self]
        exact symm _ _ (others k he).2
      · rw [place_interleave_of_ne (Ne.symm he')]
        exact h.2.2 k k' hk

/-- The same, for a program that keeps the outline at all places. -/
theorem outlined_interleave {G : σ → Prop} {A : σ → ℓ → Prop} {R : ℓ → ℓ → Prop} (symm : ∀ l l', R l l' → R l' l)
    (own : ∀ i l m, G m → A m l → G (program i l m).2.2 ∧ A (program i l m).2.2 (program i l m).2.1)
    (others : ∀ i l l' m, G m → A m l → A m l' → R l l' →
      A (program i l m).2.2 l' ∧ R (program i l m).2.1 l') (h : Outlined G A R s) (e : κ × ι) :
    Outlined G A R (interleave program e s).2 := by
  obtain ⟨hG, hA, hR⟩ := id h
  exact outlined_interleave_of symm h (own e.2 _ _ hG (hA e.1)) fun k hk => others e.2 _ _ _ hG (hA e.1) (hA k) (hR e.1 k hk)

/-- A thread's turns of a kind. -/
def Own (k : κ) (p : ι → ℓ → Bool) (x : Transition (Places κ σ ℓ) (κ × ι) ω) : Bool :=
  x.event.1 == k && p x.event.2 (x.before.place k)

/-- A thread has no more turns of a kind than its place has left, when each of them uses up some of what is left. -/
theorem countP_own_le {I : Places κ σ ℓ → Prop} {C : Places κ σ ℓ → κ × ι → Prop} (k : κ) (p : ι → ℓ → Bool) (left : ℓ → ℕ)
    (hI : ∀ e s, I s → C s e → I (interleave program e s).2)
    (hown : ∀ i s, I s → C s (k, i) →
      left (program i (s.place k) s.memory).2.1 + (if p i (s.place k) then 1 else 0) ≤ left (s.place k))
    (es : List (κ × ι)) (hs : I s) (hes : ∀ x ∈ transitions (interleave program) es s, C x.before x.event) :
    (transitions (interleave program) es s).countP (Own k p) ≤ left (s.place k) := by
  refine countP_transitions_le (I := I) (Own k p) (fun s => left (s.place k)) (fun e s hs hC => ?_) es hs hes
  refine ⟨hI e s hs hC, ?_⟩
  by_cases hk : e.1 = k
  · obtain ⟨k', i⟩ := e
    subst hk
    rw [place_interleave_self]
    simpa [Own] using hown i s hs hC
  · rw [place_interleave_of_ne (Ne.symm hk)]
    simp [Own, hk]

end Interleave

end Cursus.Run
