/-!
# Proofs/Steps — steps that may fail, one after the other

A step over a state leaves a result and a state.  What follows a step starts where the step ended, and
does not start at all when it failed (`run_bind`).  Where only success counts, an outcome is read
apart from its fault (`toOption_bind`).
-/

namespace PinnedManifest

section Steps

variable {ε σ α β : Type}

/-- **Steps in a row** — the second starts from the state the first leaves, if that succeeds. -/
theorem run_bind (x : ExceptT ε (StateM σ) α) (f : α → ExceptT ε (StateM σ) β) (s : σ) :
    (x >>= f).run s =
      match x.run s with
      | (.ok a, s') => (f a).run s'
      | (.error e, s') => (.error e, s') := by
  simp only [ExceptT.run, bind, ExceptT.bind, ExceptT.mk, StateT.bind, ExceptT.bindCont]
  rcases x s with ⟨_ | _, _⟩ <;> rfl

@[simp] theorem run_pure (a : α) (s : σ) :
    (pure a : ExceptT ε (StateM σ) α).run s = (.ok a, s) := rfl

@[simp] theorem run_throw (e : ε) (s : σ) :
    (throw e : ExceptT ε (StateM σ) α).run s = (.error e, s) := rfl

/-- A step with a rescue. -/
theorem run_tryCatch (x : ExceptT ε (StateM σ) α) (rescue : ε → ExceptT ε (StateM σ) α) (s : σ) :
    (tryCatch x rescue).run s =
      match x.run s with
      | (.ok a, s') => (.ok a, s')
      | (.error e, s') => (rescue e).run s' := by
  simp only [ExceptT.run, tryCatch, tryCatchThe, MonadExceptOf.tryCatch, ExceptT.tryCatch, ExceptT.mk,
    bind, StateT.bind]
  rcases x s with ⟨_ | _, _⟩ <;> rfl

end Steps

/-! ## Outcomes apart from their faults -/

section Outcomes

variable {α β ε ε' : Type}

@[simp] theorem toOption_ok (a : α) : (Except.ok a : Except ε α).toOption = some a := rfl

@[simp] theorem toOption_error (e : ε) : (Except.error e : Except ε α).toOption = none := rfl

theorem toOption_bind (x : Except ε α) (f : α → Except ε β) :
    (x.bind f).toOption = x.toOption.bind fun a => (f a).toOption := by
  cases x <;> rfl

@[simp] theorem toOption_map (f : α → β) (x : Except ε α) : (x.map f).toOption = x.toOption.map f := by
  cases x <;> rfl

@[simp] theorem toOption_mapError (f : ε → ε') (x : Except ε α) :
    (x.mapError f).toOption = x.toOption := by
  cases x <;> rfl

theorem toOption_eq_some_iff {x : Except ε α} {a : α} : x.toOption = some a ↔ x = .ok a := by
  cases x <;> simp

end Outcomes

end PinnedManifest
