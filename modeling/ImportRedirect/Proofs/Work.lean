import ImportRedirect.Fault

/-!
Work on a state that a fault can stop. What was done to the state before the fault stays done.
-/

namespace ImportRedirect.Work

variable {σ α β : Type}

@[simp] theorem run_pure (value : α) (state : σ) :
    (pure value : ExceptT Fault (StateM σ) α).run state = (.ok value, state) := rfl

theorem run_bind (first : ExceptT Fault (StateM σ) α) (next : α → ExceptT Fault (StateM σ) β)
    (state : σ) : (first >>= next).run state =
      match first.run state with
      | (.ok value, middle) => (next value).run middle
      | (.error fault, middle) => (.error fault, middle) := by
  change (match first.run state with
    | (result, middle) => ExceptT.bindCont next result middle) = _
  obtain ⟨result, middle⟩ := first.run state
  cases result <;> rfl

theorem run_bind_ok {first : ExceptT Fault (StateM σ) α} {state middle : σ} {value : α}
    (done : first.run state = (.ok value, middle)) (next : α → ExceptT Fault (StateM σ) β) :
    (first >>= next).run state = (next value).run middle := by
  rw [run_bind, done]

end ImportRedirect.Work
