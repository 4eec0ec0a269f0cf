/-
A table of handles: they are issued to owners from a counter, finished by anyone, and given up
together when their owner closes. Over any run the active handles are those that were issued and have
since neither been finished nor been given up; no handle becomes active a second time.
-/
import Cursus.Run.Machine

namespace Cursus.Run

structure Handles (κ : Type) where
  next : ℕ
  active : Finset ℕ
  owned : κ → Finset ℕ

/-- `abort` issues a handle and closes its owner at once. -/
inductive Action (κ : Type)
  | issue (c : κ)
  | finish (c : κ) (h : ℕ)
  | close (c : κ)
  | abort (c : κ)
  | idle

namespace Handles

variable {κ : Type}

def init : Handles κ := ⟨1, ∅, fun _ => ∅⟩

/-- The handle is issued to the owner. -/
def Issues (c : κ) (h : ℕ) : Action κ × Option ℕ → Prop
  | (.issue c', some h') => c' = c ∧ h' = h
  | _ => False

/-- The handle is finished, or given up by its owner. -/
def Ends (c : κ) (h : ℕ) : Action κ × Option ℕ → Prop
  | (.finish _ h', _) => h' = h
  | (.close c', _) => c' = c
  | (.abort c', _) => c' = c
  | _ => False

/-! ## Operations -/

section Operations

variable [DecidableEq κ]

def issue (s : Handles κ) (c : κ) : Handles κ :=
  ⟨s.next + 1, insert s.next s.active, Function.update s.owned c (insert s.next (s.owned c))⟩

def finish (s : Handles κ) (c : κ) (h : ℕ) : Handles κ :=
  ⟨s.next, s.active.erase h, Function.update s.owned c ((s.owned c).erase h)⟩

def close (s : Handles κ) (c : κ) : Handles κ :=
  ⟨s.next, s.active \ s.owned c, Function.update s.owned c ∅⟩

def step : Step (Handles κ) (Action κ) (Option ℕ)
  | .issue c, s => (some s.next, s.issue c)
  | .finish c h, s => (none, s.finish c h)
  | .close c, s => (none, s.close c)
  | .abort c, s => (none, (s.issue c).close c)
  | .idle, s => (none, s)

variable {s : Handles κ} {c c' : κ} {h h' : ℕ}

theorem mem_owned_issue : h ∈ (s.issue c).owned c' ↔ c' = c ∧ h = s.next ∨ h ∈ s.owned c' := by
  unfold issue
  by_cases hc : c' = c
  · subst hc
    simp
  · simp [hc]

theorem mem_owned_finish : h ∈ (s.finish c h').owned c' ↔ h ∈ s.owned c' ∧ ¬ (c' = c ∧ h = h') := by
  unfold finish
  by_cases hc : c' = c
  · subst hc
    simp [and_comm]
  · simp [hc]

theorem mem_owned_close : h ∈ (s.close c).owned c' ↔ h ∈ s.owned c' ∧ c' ≠ c := by
  unfold close
  by_cases hc : c' = c
  · subst hc
    simp
  · simp [hc]

end Operations

/-! ## The invariant -/

/-- What the table says of the trace so far. -/
structure Inv (t : List (Action κ × Option ℕ)) (s : Handles κ) : Prop where
  active_iff : ∀ h, h ∈ s.active ↔ ∃ c, Live (Issues c h) (Ends c h) t
  owned : ∀ c h, Live (Issues c h) (Ends c h) t → h ∈ s.owned c
  disjoint : ∀ c c' h, h ∈ s.owned c → h ∈ s.owned c' → c = c'
  owned_lt : ∀ c h, h ∈ s.owned c → h < s.next
  issued_lt : ∀ x ∈ t, ∀ c h, Issues c h x → h < s.next

theorem inv_init : Inv [] (init : Handles κ) where
  active_iff h := iff_of_false (Finset.notMem_empty h) fun ⟨_, hc⟩ => not_live_nil hc
  owned _ _ hl := absurd hl not_live_nil
  disjoint _ _ h hc := absurd hc (Finset.notMem_empty h)
  owned_lt _ h hc := absurd hc (Finset.notMem_empty h)
  issued_lt _ hx := absurd hx List.not_mem_nil

section Steps

variable {t : List (Action κ × Option ℕ)} {s : Handles κ}

theorem Inv.lt_of_live (hi : Inv t s) {c : κ} {h : ℕ} (hl : Live (Issues c h) (Ends c h) t) : h < s.next :=
  hi.owned_lt c h (hi.owned c h hl)

/-- The counter does not run back over what one more action issues. -/
theorem Inv.issued_lt_snoc (hi : Inv t s) {x : Action κ × Option ℕ} {n : ℕ} (hn : s.next ≤ n)
    (hx : ∀ c h, Issues c h x → h < n) : ∀ y ∈ t ++ [x], ∀ c h, Issues c h y → h < n := by
  intro y hy c h hiy
  rw [List.mem_append, List.mem_singleton] at hy
  rcases hy with hy | rfl
  · exact lt_of_lt_of_le (hi.issued_lt y hy c h hiy) hn
  · exact hx c h hiy

/-- An action that issues and ends nothing. -/
theorem Inv.idle (hi : Inv t s) : Inv (t ++ [(.idle, none)]) s := by
  have hlive : ∀ c h, Live (Issues c h) (Ends c h) (t ++ [(.idle, none)]) ↔ Live (Issues c h) (Ends c h) t := by
    intro c h
    rw [live_snoc_iff]
    simp [Issues, Ends]
  refine ⟨?_, ?_, hi.disjoint, hi.owned_lt, hi.issued_lt_snoc le_rfl nofun⟩
  · intro h
    simp only [hlive, hi.active_iff]
  · intro c h hl
    exact hi.owned c h ((hlive c h).1 hl)

/-- The counter may run ahead. -/
theorem Inv.skip (hi : Inv t s) : Inv t ⟨s.next + 1, s.active, s.owned⟩ where
  active_iff := hi.active_iff
  owned := hi.owned
  disjoint := hi.disjoint
  owned_lt c h hc := Nat.lt_succ_of_lt (hi.owned_lt c h hc)
  issued_lt x hx c h hix := Nat.lt_succ_of_lt (hi.issued_lt x hx c h hix)

variable [DecidableEq κ]

theorem Inv.issue (hi : Inv t s) (c : κ) : Inv (t ++ [(.issue c, some s.next)]) (s.issue c) := by
  have hlive : ∀ c' h, Live (Issues c' h) (Ends c' h) (t ++ [(.issue c, some s.next)]) ↔
      c = c' ∧ s.next = h ∨ Live (Issues c' h) (Ends c' h) t := by
    intro c' h
    rw [live_snoc_iff]
    simp [Issues, Ends]
  have hfresh : ∀ c', s.next ∉ s.owned c' := fun c' hc' => lt_irrefl _ (hi.owned_lt c' _ hc')
  refine ⟨?_, ?_, ?_, ?_, hi.issued_lt_snoc (Nat.le_succ _) ?_⟩
  · intro h
    simp only [Handles.issue, Finset.mem_insert, hlive, hi.active_iff, exists_or]
    apply or_congr_left
    constructor
    · rintro rfl
      exact ⟨c, rfl, rfl⟩
    · rintro ⟨c', -, rfl⟩
      rfl
  · intro c' h hl
    rw [mem_owned_issue]
    rcases (hlive c' h).1 hl with ⟨rfl, rfl⟩ | hold
    · exact .inl ⟨rfl, rfl⟩
    · exact .inr (hi.owned c' h hold)
  · intro c₁ c₂ h h₁ h₂
    rw [mem_owned_issue] at h₁ h₂
    -- the new handle is in no other set
    rcases h₁ with ⟨rfl, rfl⟩ | h₁ <;> rcases h₂ with ⟨rfl, h₂⟩ | h₂
    · rfl
    · exact absurd h₂ (hfresh _)
    · exact absurd (h₂ ▸ h₁) (hfresh _)
    · exact hi.disjoint _ _ h h₁ h₂
  · intro c' h hc'
    rw [mem_owned_issue] at hc'
    rcases hc' with ⟨-, rfl⟩ | hc'
    · exact Nat.lt_succ_self _
    · exact Nat.lt_succ_of_lt (hi.owned_lt _ h hc')
  · rintro c' h ⟨-, rfl⟩
    exact Nat.lt_succ_self _

theorem Inv.finish (hi : Inv t s) (c : κ) (h₀ : ℕ) : Inv (t ++ [(.finish c h₀, none)]) (s.finish c h₀) := by
  have hlive : ∀ c' h, Live (Issues c' h) (Ends c' h) (t ++ [(.finish c h₀, none)]) ↔
      Live (Issues c' h) (Ends c' h) t ∧ h₀ ≠ h := by
    intro c' h
    rw [live_snoc_iff]
    simp [Issues, Ends]
  have howned : ∀ c' h, h ∈ (s.finish c h₀).owned c' → h ∈ s.owned c' := fun _ _ hc' => (mem_owned_finish.1 hc').1
  refine ⟨?_, ?_, ?_, ?_, hi.issued_lt_snoc le_rfl nofun⟩
  · intro h
    simp only [Handles.finish, Finset.mem_erase, hlive, hi.active_iff]
    constructor
    · rintro ⟨hne, c', hl⟩
      exact ⟨c', hl, hne.symm⟩
    · rintro ⟨c', hl, hne⟩
      exact ⟨hne.symm, c', hl⟩
  · intro c' h hl
    obtain ⟨hold, hne⟩ := (hlive c' h).1 hl
    exact mem_owned_finish.2 ⟨hi.owned c' h hold, fun hc => hne hc.2.symm⟩
  · intro c₁ c₂ h h₁ h₂
    exact hi.disjoint c₁ c₂ h (howned _ _ h₁) (howned _ _ h₂)
  · intro c' h hc'
    exact hi.owned_lt c' h (howned _ _ hc')

/-- Closing an owner gives up what it owns, whatever action is recorded for it. -/
theorem Inv.close (hi : Inv t s) (c : κ) {x : Action κ × Option ℕ} (hbegins : ∀ c' h, ¬ Issues c' h x)
    (hends : ∀ c' h, Ends c' h x ↔ c = c') : Inv (t ++ [x]) (s.close c) := by
  have hlive : ∀ c' h, Live (Issues c' h) (Ends c' h) (t ++ [x]) ↔ Live (Issues c' h) (Ends c' h) t ∧ c ≠ c' := by
    intro c' h
    rw [live_snoc_iff, hends]
    simp [hbegins]
  have howned : ∀ c' h, h ∈ (s.close c).owned c' → h ∈ s.owned c' := fun _ _ hc' => (mem_owned_close.1 hc').1
  refine ⟨?_, ?_, ?_, ?_, hi.issued_lt_snoc le_rfl fun c' h hx => absurd hx (hbegins c' h)⟩
  · intro h
    simp only [Handles.close, Finset.mem_sdiff, hlive, hi.active_iff]
    constructor
    · rintro ⟨⟨c', hl⟩, hnot⟩
      exact ⟨c', hl, fun hc => hnot (hc ▸ hi.owned c' h hl)⟩
    · -- what is live on another connection is not given up: it has one owner
      rintro ⟨c', hl, hne⟩
      exact ⟨⟨c', hl⟩, fun hc => hne (hi.disjoint c c' h hc (hi.owned c' h hl))⟩
  · intro c' h hl
    obtain ⟨hold, hne⟩ := (hlive c' h).1 hl
    exact mem_owned_close.2 ⟨hi.owned c' h hold, hne.symm⟩
  · intro c₁ c₂ h h₁ h₂
    exact hi.disjoint c₁ c₂ h (howned _ _ h₁) (howned _ _ h₂)
  · intro c' h hc'
    exact hi.owned_lt c' h (howned _ _ hc')

/-- A handle that is given up at once leaves a hole in the counter, and nothing else. -/
theorem Inv.close_issue (hi : Inv t s) (c : κ) :
    (s.issue c).close c = ⟨s.next + 1, (s.close c).active, (s.close c).owned⟩ := by
  have hfresh : s.next ∉ s.active := by
    intro hn
    obtain ⟨c', hl⟩ := (hi.active_iff _).1 hn
    exact lt_irrefl _ (hi.lt_of_live hl)
  simp only [Handles.close, Handles.issue, Function.update_self, Function.update_idem, Handles.mk.injEq, true_and, and_true]
  rw [Finset.insert_sdiff_insert, Finset.sdiff_insert_of_notMem hfresh]

theorem Inv.step (hi : Inv t s) (a : Action κ) : Inv (t ++ [(a, (step a s).1)]) (step a s).2 := by
  cases a with
  | issue c => exact hi.issue c
  | finish c h => exact hi.finish c h
  | close c => exact hi.close c (fun _ _ => not_false) fun _ _ => Iff.rfl
  | abort c =>
    have hclose : Inv (t ++ [(.abort c, none)]) (s.close c) :=
      hi.close c (fun _ _ => not_false) fun _ _ => Iff.rfl
    show Inv _ ((s.issue c).close c)
    rw [hi.close_issue c]
    exact hclose.skip
  | idle => exact hi.idle

end Steps

/-! ## Runs -/

variable [DecidableEq κ]

theorem inv_run (as : List (Action κ)) : Inv (trace step as init) (final step as init) :=
  history_invariant inv_init (fun _ a _ hi => hi.step a) as

/-- A handle below the counter that is not active stays so. -/
theorem notMem_active_of_lt {h : ℕ} (as : List (Action κ)) {s : Handles κ} (hs : h < s.next ∧ h ∉ s.active) :
    h < (final step as s).next ∧ h ∉ (final step as s).active := by
  refine final_invariant (I := fun s : Handles κ => h < s.next ∧ h ∉ s.active) ?_ as hs
  rintro a s ⟨hlt, hnot⟩
  cases a with
  | issue c => exact ⟨Nat.lt_succ_of_lt hlt, by simp [step, issue, hnot, hlt.ne]⟩
  | finish c h' => exact ⟨hlt, by simp [step, finish, hnot]⟩
  | close c => exact ⟨hlt, by simp [step, close, hnot]⟩
  | abort c => exact ⟨Nat.lt_succ_of_lt hlt, by simp [step, issue, close, hnot, hlt.ne]⟩
  | idle => exact ⟨hlt, hnot⟩

end Handles

end Cursus.Run
