import ClassHost.Proofs.Machine.Access

/-!
# What is done to objects only

Most accesses make or write objects and canonical strings, and leave all other parts of the machine
alone (`Machine.OnlyObjects`). There is one lemma for each way to write to the heap, and
`onlyObjects_bind` puts changes together that are made of these. What a part of the machine keeps in
such a change follows by the definition.
-/

namespace ClassHost

variable {σ α β : Type} {m m' m'' : Machine σ}

namespace Machine

/-- Objects and canonical strings may have been made and written; everything else is as it was. -/
def OnlyObjects (m m' : Machine σ) : Prop := ∃ heap strings, m' = { m with heap, strings }

theorem OnlyObjects.refl (m : Machine σ) : OnlyObjects m m := ⟨m.heap, m.strings, rfl⟩

theorem OnlyObjects.trans (h : OnlyObjects m m') (h' : OnlyObjects m' m'') : OnlyObjects m m'' := by
  obtain ⟨_, _, rfl⟩ := h
  obtain ⟨heap, strings, rfl⟩ := h'
  exact ⟨heap, strings, rfl⟩

theorem onlyObjects_allocating (make : Machine σ → Except Throwable (ObjectId × Heap))
    (m : Machine σ) : OnlyObjects m (allocating make m).2 := by
  rw [allocating_apply]
  split
  · rename_i id heap _
    exact ⟨heap, m.strings, rfl⟩
  · exact .refl m

theorem onlyObjects_writing (write : Machine σ → Except Throwable Heap) (m : Machine σ) :
    OnlyObjects m (writing write m).2 := by
  rw [writing_apply]
  split
  · rename_i heap _
    exact ⟨heap, m.strings, rfl⟩
  · exact .refl m

theorem onlyObjects_intern (text : String) (m : Machine σ) : OnlyObjects m (intern text m).2 := by
  rw [intern_apply]
  split
  · rename_i id strings heap _
    exact ⟨heap, strings, rfl⟩
  · exact .refl m

theorem onlyObjects_bindStrings (type : ClassId) (m : Machine σ) :
    OnlyObjects m (bindStrings type m).2 := by
  rw [bindStrings_apply]
  split
  · rename_i strings _
    exact ⟨m.heap, strings, rfl⟩
  · exact .refl m

theorem onlyObjects_bind {x : Change σ Throwable α} {f : α → Change σ Throwable β}
    (hx : OnlyObjects m (x m).2) (hf : ∀ a middle, OnlyObjects middle (f a middle).2) :
    OnlyObjects m ((x >>= f) m).2 :=
  Effect.related_bind OnlyObjects OnlyObjects.trans hx fun a middle _ => hf a middle

theorem onlyObjects_fillStrings (array : ObjectId) (index : Nat) (texts : List String)
    (m : Machine σ) : OnlyObjects m (fillStrings array index texts m).2 := by
  induction texts generalizing index m with
  | nil => exact .refl m
  | cons text texts ih =>
    exact onlyObjects_bind (onlyObjects_intern text m) fun string middle =>
      onlyObjects_bind (onlyObjects_writing _ middle) fun _ last => ih (index + 1) last

theorem onlyObjects_raise (error : RaisedError) (m : Machine σ) :
    OnlyObjects m (raise error m).2 := by
  unfold raise
  rw [Effect.get_bind]
  cases m.wellKnown with
  | none => exact .refl m
  | some known =>
    dsimp only
    cases known.exception? m.table error.className with
    | none => exact .refl m
    | some type =>
      exact onlyObjects_bind (onlyObjects_allocating _ m) fun object made =>
        onlyObjects_bind (onlyObjects_intern _ made) fun string middle =>
          onlyObjects_bind (onlyObjects_writing _ middle) fun _ last => .refl last

/-- Making an array of strings loads its class. -/
theorem newStringArray_apply (texts : List String) (m : Machine σ) :
    OnlyObjects (load CoreName.stringArray m).2 (newStringArray texts m).2 := by
  unfold newStringArray
  rw [Effect.bind_apply]
  rcases load CoreName.stringArray m with ⟨error | found, middle⟩
  · exact .refl middle
  · cases found with
    | none => exact .refl middle
    | some type =>
      exact onlyObjects_bind (onlyObjects_allocating _ middle) fun array made =>
        onlyObjects_bind (onlyObjects_fillStrings array 0 texts made) fun _ last => .refl last

end Machine

end ClassHost
