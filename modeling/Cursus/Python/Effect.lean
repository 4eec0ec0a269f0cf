/-
Python calls on one mutable object. A call returns or raises; in both cases it leaves the object in
some state, and what it changed before an exception stays changed. A function that may return `None`
has an `Option` as its result.
-/
import Cursus.Python.Bytes

namespace Cursus.Python

/-! ## Optional results -/

section Chain

variable {α β : Type}

/-- Go on with a result; `None` when there is none. -/
def chain (x : Except PyError (Option α)) (f : α → Except PyError (Option β)) : Except PyError (Option β) :=
  match x with
  | .ok (some a) => f a
  | .ok none => .ok none
  | .error e => .error e

@[simp] theorem chain_some (a : α) (f : α → Except PyError (Option β)) : chain (.ok (some a)) f = f a := rfl

@[simp] theorem chain_none (f : α → Except PyError (Option β)) : chain (.ok none) f = .ok none := rfl

@[simp] theorem chain_error (e : PyError) (f : α → Except PyError (Option β)) :
    chain (.error e) f = .error e := rfl

theorem chain_eq_some {x : Except PyError (Option α)} {f : α → Except PyError (Option β)} {b : β}
    (h : chain x f = .ok (some b)) : ∃ a, x = .ok (some a) ∧ f a = .ok (some b) := by
  rcases x with e | _ | a
  · cases h
  · cases h
  · exact ⟨a, rfl, h⟩

theorem chain_error_iff {x : Except PyError (Option α)} {f : α → Except PyError (Option β)} :
    (∃ e, chain x f = .error e) ↔ (∃ e, x = .error e) ∨ ∃ a, x = .ok (some a) ∧ ∃ e, f a = .error e := by
  rcases x with e | _ | a <;> simp

end Chain

/-! ## Calls -/

/-- A call on an object with state `σ`. -/
def Py (σ α : Type) : Type := σ → Except PyError α × σ

namespace Py

variable {σ α β : Type}

instance : Monad (Py σ) where
  pure a := fun s => (.ok a, s)
  bind x f := fun s =>
    match x s with
    | (.ok a, s') => f a s'
    | (.error e, s') => (.error e, s')

instance : MonadStateOf σ (Py σ) where
  get := fun s => (.ok s, s)
  set s := fun _ => (.ok (), s)
  modifyGet f := fun s => (.ok (f s).1, (f s).2)

instance : MonadLift (Except PyError) (Py σ) := ⟨fun x s => (x, s)⟩

def raise (e : PyError) : Py σ α := fun s => (.error e, s)

/-! ## Running a call -/

@[simp] theorem pure_apply (a : α) (s : σ) : (pure a : Py σ α) s = (.ok a, s) := rfl

@[simp] theorem get_apply (s : σ) : (get : Py σ σ) s = (.ok s, s) := rfl

@[simp] theorem set_apply (s s' : σ) : (set s' : Py σ PUnit) s = (.ok (), s') := rfl

@[simp] theorem modify_apply (f : σ → σ) (s : σ) : (modify f : Py σ PUnit) s = (.ok (), f s) := rfl

@[simp] theorem lift_apply (x : Except PyError α) (s : σ) : (liftM x : Py σ α) s = (x, s) := rfl

@[simp] theorem raise_apply (e : PyError) (s : σ) : (raise e : Py σ α) s = (.error e, s) := rfl

@[simp] theorem ite_apply (c : Prop) [Decidable c] (x y : Py σ α) (s : σ) :
    (if c then x else y) s = if c then x s else y s := by
  split <;> rfl

theorem bind_apply (x : Py σ α) (f : α → Py σ β) (s : σ) :
    (x >>= f) s = match x s with
      | (.ok a, s') => f a s'
      | (.error e, s') => (.error e, s') := rfl

theorem bind_of_ok {x : Py σ α} {f : α → Py σ β} {s s' : σ} {a : α} (h : x s = (.ok a, s')) :
    (x >>= f) s = f a s' := by
  rw [bind_apply, h]

theorem bind_of_error {x : Py σ α} {f : α → Py σ β} {s s' : σ} {e : PyError} (h : x s = (.error e, s')) :
    (x >>= f) s = (.error e, s') := by
  rw [bind_apply, h]

/-- A chain of calls that returns has returned from the first one. -/
theorem bind_eq_ok {x : Py σ α} {f : α → Py σ β} {s s' : σ} {b : β} (h : (x >>= f) s = (.ok b, s')) :
    ∃ a s'', x s = (.ok a, s'') ∧ f a s'' = (.ok b, s') := by
  rcases hx : x s with ⟨e | a, s''⟩
  · rw [bind_of_error hx] at h
    cases h
  · rw [bind_of_ok hx] at h
    exact ⟨a, s'', rfl, h⟩

@[simp] theorem get_bind (f : σ → Py σ β) (s : σ) : (get >>= f) s = f s s := rfl

@[simp] theorem set_bind (s s' : σ) (f : PUnit → Py σ β) : (set s' >>= f) s = f ⟨⟩ s' := rfl

@[simp] theorem modify_bind (g : σ → σ) (f : PUnit → Py σ β) (s : σ) :
    (modify g >>= f) s = f ⟨⟩ (g s) := rfl

@[simp] theorem pure_bind_apply (a : α) (f : α → Py σ β) (s : σ) : (pure a >>= f) s = f a s := rfl

@[simp] theorem lift_ok_bind (a : α) (f : α → Py σ β) (s : σ) :
    ((liftM (Except.ok a : Except PyError α) : Py σ α) >>= f) s = f a s := rfl

@[simp] theorem lift_error_bind (e : PyError) (f : α → Py σ β) (s : σ) :
    ((liftM (Except.error e : Except PyError α) : Py σ α) >>= f) s = (.error e, s) := rfl

theorem bind_pure_apply (x : Py σ α) (f : α → β) (s : σ) :
    (x >>= fun a => pure (f a)) s = ((x s).1.map f, (x s).2) := by
  rcases hx : x s with ⟨e | a, s'⟩
  · exact bind_of_error hx
  · exact bind_of_ok hx

theorem lift_bind_pure (x : Except PyError α) (f : α → β) (s : σ) :
    ((liftM x : Py σ α) >>= fun a => pure (f a)) s = (x.map f, s) := by
  cases x <;> rfl

instance : LawfulMonad (Py σ) :=
  LawfulMonad.mk' (Py σ)
    (fun x => by
      funext s
      apply (bind_pure_apply x id s).trans
      rcases x s with ⟨e | a, s'⟩ <;> rfl)
    (fun _ _ => rfl)
    (fun x f g => by
      funext s
      rcases hx : x s with ⟨e | a, s'⟩
      · rw [bind_of_error hx, bind_of_error (bind_of_error hx)]
      · rw [bind_of_ok hx, bind_apply, bind_of_ok hx, ← bind_apply])

/-- A call that goes on with the result of another one and leaves the object alone. -/
theorem chain_apply {x : Py σ (Option α)} {k : Option α → Py σ (Option β)} {f : α → Except PyError (Option β)}
    (hnone : ∀ s, k none s = (.ok none, s)) (hsome : ∀ a s, k (some a) s = (f a, s)) (s : σ) :
    (x >>= k) s = (chain (x s).1 f, (x s).2) := by
  rcases hx : x s with ⟨e | _ | a, s'⟩
  · rw [bind_of_error hx]
    rfl
  · rw [bind_of_ok hx, hnone]
    rfl
  · rw [bind_of_ok hx, hsome]
    rfl

end Py

/-! ## The try statement -/

section Try

variable {ε σ α β : Type} {x : EStateM ε σ α} {s s' s'' : σ} {a : α} {b : β} {e : ε}

theorem get_returns (f : σ → EStateM ε σ β) (s : σ) : (get >>= f) s = f s s := rfl

theorem set_returns (f : PUnit → EStateM ε σ β) (s s' : σ) : (set s' >>= f) s = f ⟨⟩ s' := rfl

theorem bind_returns {f : α → EStateM ε σ β} (h : x s = .ok a s') : (x >>= f) s = f a s' := by
  simp only [bind, EStateM.bind, h]

theorem bind_raises {f : α → EStateM ε σ β} (h : x s = .error e s') : (x >>= f) s = .error e s' := by
  simp only [bind, EStateM.bind, h]

theorem catch_returns {f : ε → EStateM ε σ α} (h : x s = .ok a s') : tryCatch x f s = .ok a s' := by
  simp only [tryCatch, tryCatchThe, MonadExceptOf.tryCatch, EStateM.tryCatch, h]

/-- The handler goes on in the state that the exception has left. -/
theorem catch_raises {f : ε → EStateM ε σ α} (h : x s = .error e s') : tryCatch x f s = f e s' := by
  simp only [tryCatch, tryCatchThe, MonadExceptOf.tryCatch, EStateM.tryCatch, h]
  rfl

theorem finally_returns {f : EStateM ε σ β} (h : x s = .ok a s') (hf : f s' = .ok b s'') :
    tryFinally x f s = .ok a s'' := by
  simp only [tryFinally, tryFinally', Functor.map, EStateM.map, h, hf]

theorem finally_raises {f : EStateM ε σ β} (h : x s = .error e s') (hf : f s' = .ok b s'') :
    tryFinally x f s = .error e s'' := by
  simp only [tryFinally, tryFinally', Functor.map, EStateM.map, h, hf]

end Try

end Cursus.Python
