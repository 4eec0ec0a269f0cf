/-
What `start_server` of `cursus/starter.py` raises. The error that it tests behind its delay is the one of any
server thread that has failed since it reset it: its own, or one that an earlier start has left running.
-/
import Cursus.Starter.Fields

namespace Cursus

open Cursus.Run

/-- The statement of the start `n` is behind the one that resets the error. -/
def StartServer.behindReset (n : ℕ) : StartServer → Bool
  | .assignThread k | .startThread k | .startMonitor k | .sleep k => k == n
  | .construct | .clear _ | .resetError _ => false

namespace Starter

variable {s s₀ : Starter} {n : ℕ}

def BehindReset (n : ℕ) (s : Starter) : Prop :=
  ∃ statement, s.caller = .startServer statement ∧ statement.behindReset n = true

theorem resets_of_entered (e : Turn) (hnot : ¬ s.BehindReset n) :
    (s.next e).BehindReset n → ∃ raises, e = .caller raises ∧ s.caller = .startServer (.resetError n) := by
  refine next_cases (motive := fun e s' => s'.BehindReset n →
    ∃ raises, e = .caller raises ∧ s.caller = .startServer (.resetError n)) e (fun _ h => absurd h hnot) ?_ ?_
    (fun raises statement hc => ?_) (fun raises statement _ => ?_) (fun _ _ h => absurd h hnot)
    (fun _ _ h => absurd h hnot)
  · rintro - ⟨_, ⟨⟩, ⟨⟩⟩
  · rintro - ⟨_, ⟨⟩, -⟩
  · rintro ⟨statement', hc', hbehind⟩
    cases statement with
    | construct =>
      cases raises with
      | true => cases hc'
      | false =>
        cases hc'
        cases hbehind
    | clear k =>
      cases hc'
      cases hbehind
    | resetError k =>
      cases hc'
      obtain rfl : k = n := beq_iff_eq.1 hbehind
      exact ⟨raises, rfl, hc⟩
    | assignThread k | startThread k | startMonitor k =>
      cases hc'
      exact absurd ⟨_, hc, hbehind⟩ hnot
    | sleep k => cases hc'
  · rintro ⟨statement', hc', -⟩
    cases statement with
    | getStop => cases hserver : s.server <;> simp [Starter.stopServer, hserver] at hc'
    | stop => cases raises <;> cases hc'
    | join | clear | dropServer | dropThread | dropError => cases hc'

/-- There is an error iff a server thread has failed since the state `s₀`. -/
structure Reports (s₀ s : Starter) : Prop where
  failed : ∀ k, s₀.serverThreads k = .failed → s.serverThreads k = .failed
  serverError_iff : s.serverError = true ↔ ∃ k, s₀.serverThreads k ≠ .failed ∧ s.serverThreads k = .failed

theorem Reports.runServer (h : Reports s₀ s) (k : ℕ) (raises : Bool) : Reports s₀ (s.runServer k raises) := by
  have hself : (s.runServer k raises).serverThreads k = .failed ↔
      s.serverThreads k = .setError ∨ s.serverThreads k = .failed := by
    rw [show (s.runServer k raises).serverThreads k = s.serverThreadAfter raises (s.serverThreads k) from
      Function.update_self ..]
    exact serverThreadAfter_eq_failed
  have hother : ∀ j, j ≠ k → (s.runServer k raises).serverThreads j = s.serverThreads j :=
    fun j hj => Function.update_of_ne hj ..
  have hkeeps : ∀ j, s.serverThreads j = .failed → (s.runServer k raises).serverThreads j = .failed := by
    intro j hj
    by_cases hjk : j = k
    · subst hjk
      exact hself.2 (.inr hj)
    · rwa [hother j hjk]
  refine ⟨fun j hj => hkeeps j (h.failed j hj), ?_⟩
  rw [show (s.runServer k raises).serverError = (s.serverError || s.serverThreads k == .setError) from rfl,
    Bool.or_eq_true, beq_iff_eq, h.serverError_iff]
  constructor
  · rintro (⟨j, hne, hj⟩ | hset)
    · exact ⟨j, hne, hkeeps j hj⟩
    · refine ⟨k, fun hfailed => ?_, hself.2 (.inl hset)⟩
      cases hset.symm.trans (h.failed k hfailed)
  · rintro ⟨j, hne, hj⟩
    by_cases hjk : j = k
    · subst hjk
      exact (hself.1 hj).symm.imp_left fun hj => ⟨j, hne, hj⟩
    · exact .inl ⟨j, hne, (hother j hjk).symm.trans hj⟩

theorem Reports.next (h : Reports s₀ s) (hs : s.Consistent) (hbehind : s.BehindReset n) (e : Turn) :
    Reports s₀ (s.next e) := by
  obtain ⟨statement, hc, hbehind⟩ := hbehind
  have hf := hs.fields
  rw [hc] at hf
  refine next_cases (motive := fun _ s' => Reports s₀ s') e (fun _ => h) (fun hidle => ?_) (fun hidle => ?_)
    (fun raises statement' hc' => ?_) (fun raises statement' hc' => ?_) h.runServer (fun _ _ => ⟨h.1, h.2⟩)
  · cases hidle.symm.trans hc
  · cases hidle.symm.trans hc
  · cases hc.symm.trans hc'
    cases statement with
    | construct | clear | resetError => cases hbehind
    | assignThread | startMonitor | sleep => exact ⟨h.1, h.2⟩
    | startThread k =>
      -- the thread that is started has not failed, now or before
      have hunstarted := hf.2.2.2.2
      have hother : ∀ j, j ≠ k → (s.startServer raises (.startThread k)).serverThreads j = s.serverThreads j :=
        fun j hj => Function.update_of_ne hj ..
      have hself : (s.startServer raises (.startThread k)).serverThreads k = .testServer := Function.update_self ..
      refine ⟨fun j hj => ?_, ?_⟩
      · have hjk : j ≠ k := by
          rintro rfl
          cases hunstarted.symm.trans (h.failed j hj)
        exact (hother j hjk).trans (h.failed j hj)
      · refine h.serverError_iff.trans (exists_congr fun j => and_congr_right fun _ => ?_)
        by_cases hjk : j = k
        · subst hjk
          rw [hself, hunstarted]
          exact iff_of_false nofun nofun
        · rw [hother j hjk]
  · cases hc'.symm.trans hc

theorem reports_run (during : List Turn) (hs : s.Consistent) (h : Reports s₀ s)
    (hbehind : ∀ x ∈ transitions step during s, x.before.BehindReset n) : Reports s₀ (final step during s) := by
  induction during generalizing s with
  | nil => exact h
  | cons e during ih =>
    rw [transitions_cons, List.forall_mem_cons] at hbehind
    exact ih (hs.next e) (h.next hs hbehind.1 e) hbehind.2

theorem started_sleep {raises : Bool} (hc : s.caller = .startServer (.sleep n)) :
    (step (.caller raises) s).1 = some (if s.serverError then .runtimeError else .thread n) := by
  rw [step, started, hc]

/-- Behind its delay `start_server` returns its server thread, or raises; and it raises iff a server thread has
failed since it reset the error, when its own one was not started. -/
theorem start_server_raises_iff (turns : List Turn) (n : ℕ)
    (h : (final step turns .init).caller = .startServer (.sleep n)) :
    ∃ before raises during, turns = before ++ .caller raises :: during ∧
      (final step before .init).caller = .startServer (.resetError n) ∧
      (final step before .init).serverThreads n = .unstarted ∧ ∃ ends,
      (∀ raises, (step (.caller raises) (final step turns .init)).1 = some ends) ∧
      (ends = .thread n ∨ ends = .runtimeError) ∧
      (ends = .runtimeError ↔ ∃ k, (final step before .init).serverThreads k ≠ .failed ∧
        (final step turns .init).serverThreads k = .failed) := by
  obtain ⟨before, e, during, rfl, hnot, hentered, hduring⟩ :=
    exists_entered (BehindReset n) (by rintro ⟨_, ⟨⟩, -⟩) turns ⟨_, h, beq_self_eq_true n⟩
  obtain ⟨raises, rfl, hc⟩ := resets_of_entered e hnot hentered
  have hs := consistent_run before
  have hf := hs.fields
  rw [hc] at hf
  have hnext : (final step before .init).next (.caller raises) =
      { final step before .init with serverError := false, caller := .startServer (.assignThread n) } := by
    rw [next, hc]
    rfl
  have herror : (final step (before ++ .caller raises :: during) .init).serverError = true ↔
      ∃ k, (final step before .init).serverThreads k ≠ .failed ∧
        (final step (before ++ .caller raises :: during) .init).serverThreads k = .failed := by
    rw [final_append, final_cons]
    refine (reports_run during (hs.next (.caller raises)) ?_ hduring).serverError_iff
    rw [hnext]
    refine ⟨fun _ hk => hk, iff_of_false (by rintro ⟨⟩) ?_⟩
    rintro ⟨k, hne, heq⟩
    exact hne heq
  refine ⟨before, raises, during, rfl, hc, hf.2.2.2, _, fun _ => started_sleep h, ?_, ?_⟩
  · split
    · exact .inr rfl
    · exact .inl rfl
  · rw [← herror]
    split <;> simp_all

/-- A start whose `start` raises during the delay. -/
def raisingStart : List Turn :=
  [.startServer, .caller false, .caller false, .caller false, .caller false, .caller false, .caller false,
    .server 0 false, .server 0 false, .server 0 true, .server 0 false]

theorem start_server_raises_raisingStart :
    ∃ before raises during, raisingStart = before ++ .caller raises :: during ∧
      (final step before .init).caller = .startServer (.resetError 0) ∧
      (final step before .init).serverThreads 0 = .unstarted ∧ ∃ ends,
      (∀ raises, (step (.caller raises) (final step raisingStart .init)).1 = some ends) ∧
      (ends = .thread 0 ∨ ends = .runtimeError) ∧
      (ends = .runtimeError ↔ ∃ k, (final step before .init).serverThreads k ≠ .failed ∧
        (final step raisingStart .init).serverThreads k = .failed) :=
  start_server_raises_iff raisingStart 0 rfl

end Starter

end Cursus
