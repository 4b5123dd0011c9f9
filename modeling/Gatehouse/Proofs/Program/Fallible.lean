/-!
# Computations that keep a state and may fail

After a step that succeeds such a computation goes on in the state that the step left, and it ends with
the first error (`run_andThen`).
-/

namespace Gatehouse

variable {ε σ α β : Type} {x : ExceptT ε (StateM σ) α} {f : α → ExceptT ε (StateM σ) β} {s s' : σ}

theorem run_andThen (x : ExceptT ε (StateM σ) α) (f : α → ExceptT ε (StateM σ) β) (s : σ) :
    (x >>= f) s = match x s with
      | (.ok a, s') => f a s'
      | (.error e, s') => (.error e, s') := by
  change (match x s with | (o, s') => ExceptT.bindCont f o s') = _
  rcases x s with ⟨o, s'⟩
  cases o <;> rfl

theorem run_andThen_ok {a : α} (done : x s = (.ok a, s')) : (x >>= f) s = f a s' := by
  rw [run_andThen, done]

theorem run_andThen_error {e : ε} (failed : x s = (.error e, s')) :
    (x >>= f) s = (.error e, s') := by
  rw [run_andThen, failed]

end Gatehouse
