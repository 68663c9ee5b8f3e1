/-!
# Changes that may fail

Loading and the other changes of a machine are computations of one form: they change a state, may
fail on the way, and what they did before a failure stands. `bind_cases` takes a run of two of them
in a row apart; everything else about them is evaluation.
-/

namespace ClassHost.Effect

variable {S ε α β : Type}

theorem bind_apply (x : ExceptT ε (StateM S) α) (f : α → ExceptT ε (StateM S) β) (s : S) :
    (x >>= f) s =
      match x s with
      | (.ok a, s') => f a s'
      | (.error e, s') => (.error e, s') := by
  change (match x s with
    | (r, s') => ExceptT.bindCont f r s') = _
  rcases x s with ⟨_ | _, _⟩ <;> rfl

/-- What was returned, and what was left. -/
theorem eq_of_ok {a a' : α} {s s' : S} (h : ((.ok a, s) : Except ε α × S) = (.ok a', s')) :
    a = a' ∧ s = s' := by
  obtain ⟨hreturned, hleft⟩ := Prod.mk.inj h
  exact ⟨Except.ok.inj hreturned, hleft⟩

theorem bind_of_ok {x : ExceptT ε (StateM S) α} {s s' : S} {a : α} (h : x s = (.ok a, s'))
    (f : α → ExceptT ε (StateM S) β) : (x >>= f) s = f a s' := by
  rw [bind_apply, h]

theorem bind_of_error {x : ExceptT ε (StateM S) α} {s s' : S} {e : ε} (h : x s = (.error e, s'))
    (f : α → ExceptT ε (StateM S) β) : (x >>= f) s = (.error e, s') := by
  rw [bind_apply, h]

@[simp] theorem get_bind (f : S → ExceptT ε (StateM S) α) (s : S) : (get >>= f) s = f s s := rfl

@[simp] theorem modify_bind (g : S → S) (f : PUnit → ExceptT ε (StateM S) α) (s : S) :
    (modify g >>= f) s = f ⟨⟩ (g s) := rfl

/-- Two changes in a row either both run, or the first fails and is all that happens. -/
theorem bind_cases {x : ExceptT ε (StateM S) α} {f : α → ExceptT ε (StateM S) β} {s s' : S}
    {r : Except ε β} (h : (x >>= f) s = (r, s')) :
    (∃ a middle, x s = (.ok a, middle) ∧ f a middle = (r, s')) ∨
      ∃ e, r = .error e ∧ x s = (.error e, s') := by
  rw [bind_apply] at h
  rcases hx : x s with ⟨e | a, middle⟩
  · rw [hx] at h
    obtain ⟨rfl, rfl⟩ := Prod.mk.inj h
    exact .inr ⟨e, rfl, rfl⟩
  · rw [hx] at h
    exact .inl ⟨a, middle, rfl, h⟩

/-- A relation that may be followed one step after the other leads through two changes in a row. -/
theorem related_bind (relation : S → S → Prop)
    (htrans : ∀ {s s' s''}, relation s s' → relation s' s'' → relation s s'')
    {x : ExceptT ε (StateM S) α} {f : α → ExceptT ε (StateM S) β} {s : S}
    (hx : relation s (x s).2) (hf : ∀ a s', x s = (.ok a, s') → relation s' (f a s').2) :
    relation s ((x >>= f) s).2 := by
  rw [bind_apply]
  rcases hrun : x s with ⟨e | a, s'⟩
  · rw [hrun] at hx
    exact hx
  · rw [hrun] at hx
    exact htrans hx (hf a s' hrun)

end ClassHost.Effect
