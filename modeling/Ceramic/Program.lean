import Mathlib

/-! `EStateM` programs as the models run them. A JavaScript `async` method that throws keeps
the writes it made before the throw, as `EStateM` does; `leaves` is the state a run ends in,
whether it returned or threw. The run lemmas below let a proof step through a `do` block
without unfolding `EStateM`. -/
namespace Ceramic

/-- Throw what a step returned as an error. -/
def liftExcept {ε σ α : Type} : Except ε α → EStateM ε σ α
  | .ok a => pure a
  | .error e => throw e

/-- The state a run ends in, whether it returned or threw. -/
def leaves {ε σ α : Type} : EStateM.Result ε σ α → σ
  | .ok _ s => s
  | .error _ s => s

section Run

variable {ε σ α β : Type}

theorem run_bind (x : EStateM ε σ α) (f : α → EStateM ε σ β) (s : σ) :
    (x >>= f).run s = match x.run s with
      | .ok a s => (f a).run s
      | .error e s => .error e s := rfl

@[simp] theorem run_pure (a : α) (s : σ) : (pure a : EStateM ε σ α).run s = .ok a s := rfl

@[simp] theorem run_get (s : σ) : (get : EStateM ε σ σ).run s = .ok s s := rfl

@[simp] theorem run_set (s s' : σ) : (set s' : EStateM ε σ PUnit).run s = .ok ⟨⟩ s' := rfl

@[simp] theorem run_modify (f : σ → σ) (s : σ) :
    (modify f : EStateM ε σ PUnit).run s = .ok ⟨⟩ (f s) := rfl

@[simp] theorem run_throw (e : ε) (s : σ) : (throw e : EStateM ε σ α).run s = .error e s := rfl

@[simp] theorem run_liftExcept_ok (a : α) (s : σ) :
    (liftExcept (.ok a) : EStateM ε σ α).run s = .ok a s := rfl

@[simp] theorem run_liftExcept_error (e : ε) (s : σ) :
    (liftExcept (.error e) : EStateM ε σ α).run s = .error e s := rfl

/-- A `catch` runs on the state the failed block left. -/
theorem run_tryCatch (x : EStateM ε σ α) (handle : ε → EStateM ε σ α) (s : σ) :
    (tryCatch x handle).run s = match x.run s with
      | .ok a s => .ok a s
      | .error e s => (handle e).run s := by
  simp only [EStateM.run, tryCatch, tryCatchThe, MonadExceptOf.tryCatch, EStateM.tryCatch]
  cases x s <;> rfl

theorem leaves_bind (x : EStateM ε σ α) (f : α → EStateM ε σ β) (s : σ) :
    leaves ((x >>= f).run s) = match x.run s with
      | .ok a s => leaves ((f a).run s)
      | .error _ s => s := by
  rw [run_bind]; cases x.run s <;> rfl

theorem leaves_bind_pure (x : EStateM ε σ α) (b : β) (s : σ) :
    leaves ((x >>= fun _ => pure b).run s) = leaves (x.run s) := by
  rw [leaves_bind]; cases x.run s <;> rfl

end Run

end Ceramic
