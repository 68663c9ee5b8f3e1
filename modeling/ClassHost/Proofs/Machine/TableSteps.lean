import ClassHost.Proofs.Machine.CallStack
import ClassHost.Proofs.Machine.ObjectSteps

/-!
# What accesses do to the class table

Most accesses are about objects and do not look back at the class table (`OnlyObjects`). Loading
adds classes, and four accesses change one class each: its state, its role or its static fields.
`Machine.TableStep` lists what is left if states are not set and classes come from the class path
(`Access.step`). So only the two that set states move classes: `Access.unmoved` says of all others
that every class stays in its state and new classes are loaded and no more.
-/

namespace ClassHost

variable {σ : Type} {m m' : Machine σ}

-- ---------------------------------------------------------------------------
-- States
-- ---------------------------------------------------------------------------

/-- No class has moved from its state, and new classes are loaded and no more. -/
structure ClassTable.Unmoved (table table' : ClassTable) : Prop where
  keeps : table.Keeps table'
  stateOf : ∀ id, table'.stateOf id = table.stateOf id ∨
    table.get? id = none ∧ table'.stateOf id = .loaded

namespace ClassTable.Unmoved

variable {table table' : ClassTable}

theorem refl (table : ClassTable) : table.Unmoved table := ⟨.refl table, fun _ => .inl rfl⟩

theorem of_eq (h : table' = table) : table.Unmoved table' := h ▸ .refl table

theorem of_built (h : Built table table') : table.Unmoved table' where
  keeps := (TableFrame.of_built h).keeps
  stateOf id := by
    cases hget : table.get? id with
    | some c =>
      rw [stateOf_of_get? hget, stateOf_of_get? (h.get?_of_some hget)]
      exact .inl rfl
    | none =>
      cases hget' : table'.get? id with
      | none => simp [ClassTable.stateOf, hget, hget']
      | some c =>
        obtain ⟨name, kind, rfl⟩ := h.eq_ofKind hget' hget
        exact .inr ⟨rfl, stateOf_of_get? hget'⟩

/-- A change of one class that keeps its name, kind and state. -/
theorem of_modify {id : ClassId} {change : LoadedClass → LoadedClass}
    (hname : ∀ c, (change c).name = c.name) (hkind : ∀ c, (change c).kind = c.kind)
    (hstate : ∀ c, (change c).state = c.state) : table.Unmoved (table.modify id change) where
  keeps := {
    get? := fun {other c} hget => by
      rw [get?_modify, hget]
      split
      · exact ⟨_, rfl, hname c, hkind c⟩
      · exact ⟨c, rfl, rfl, rfl⟩
    find? := fun hfind => (find?_modify hname).trans hfind }
  stateOf other := by
    -- the change leaves the states alone, so the modified class is in the state that it was in
    refine .inl ?_
    rw [ClassTable.stateOf, ClassTable.stateOf, get?_modify]
    split
    · rw [Option.map_map]
      exact congrArg (·.getD .notLoaded)
        (congrArg (Option.map · (table.get? other)) (funext hstate))
    · rfl

end ClassTable.Unmoved

-- ---------------------------------------------------------------------------
-- Accesses
-- ---------------------------------------------------------------------------

namespace Machine

/-- What may become of the table in a step that moves no class, and that adds none but those of the
class path. -/
inductive TableStep (m : Machine σ) : ClassTable → Prop where
  | same : m.TableStep m.table
  | load (name : String) : m.TableStep (Machine.load name m).2.table
  | modify (type : ClassId) (change : LoadedClass → LoadedClass)
      (hname : ∀ c, (change c).name = c.name) (hkind : ∀ c, (change c).kind = c.kind)
      (hstate : ∀ c, (change c).state = c.state) : m.TableStep (m.table.modify type change)

theorem unmoved_load (name : String) (m : Machine σ) : m.table.Unmoved (load name m).2.table :=
  .of_built (Loader.spec_load m.classPath name m.loader _ _ rfl).grows.built

theorem TableStep.unmoved {table : ClassTable} (h : m.TableStep table) : m.table.Unmoved table := by
  cases h with
  | same => exact .refl m.table
  | load name => exact unmoved_load name m
  | modify type change hname hkind hstate => exact .of_modify hname hkind hstate

theorem OnlyObjects.step (h : OnlyObjects m m') :
    m'.classPath = m.classPath ∧ m.TableStep m'.table := by
  obtain ⟨heap, strings, rfl⟩ := h
  exact ⟨rfl, .same⟩

end Machine

/-- The accesses that move no class, and bring no other classes than those of the class path. -/
def Access.Plain : Access σ → Prop
  | setState _ _ | transition _ _ _ | setClassPath _ | loadBytes _ => False
  | _ => True

theorem Access.step {access : Access σ} (h : access.Plain) (m : Machine σ) :
    (access.apply m).2.classPath = m.classPath ∧ m.TableStep (access.apply m).2.table := by
  cases access with
  | setState type state => exact h.elim
  | transition type source target => exact h.elim
  | setClassPath classPath => exact h.elim
  | loadBytes bytes => exact h.elim
  | load name => exact ⟨rfl, .load name⟩
  | newStringArray texts =>
    -- besides the heap and the pool, the class of string arrays may have been loaded
    obtain ⟨heap, strings, hlast⟩ := Machine.newStringArray_apply texts m
    change (Machine.newStringArray texts m).2.classPath = _ ∧
      m.TableStep (Machine.newStringArray texts m).2.table
    rw [hlast]
    exact ⟨rfl, .load CoreName.stringArray⟩
  | setDelegate object =>
    change (Machine.setDelegate object m).2.classPath = _ ∧
      m.TableStep (Machine.setDelegate object m).2.table
    rw [Machine.setDelegate, Machine.loading_apply, Loader.setDelegate_apply]
    split <;> exact ⟨rfl, .same⟩
  | tag type role =>
    refine ⟨rfl, ?_⟩
    change m.TableStep (m.table.tag type role).2
    unfold ClassTable.tag
    split
    · exact .modify type (fun c => { c with role := some role }) (fun _ => rfl) (fun _ => rfl)
        fun _ => rfl
    · exact .same
  | setStatic type key value =>
    exact ⟨rfl, .modify type (fun c => { c with statics := storeField c.statics key value })
      (fun _ => rfl) (fun _ => rfl) fun _ => rfl⟩
  | newInstance type => exact (Machine.onlyObjects_allocating _ m).step
  | newArray type length => exact (Machine.onlyObjects_allocating _ m).step
  | intern text => exact (Machine.onlyObjects_intern text m).step
  | bindStrings type => exact (Machine.onlyObjects_bindStrings type m).step
  | setField object key value => exact (Machine.onlyObjects_writing _ m).step
  | setElement object index value => exact (Machine.onlyObjects_writing _ m).step
  | raise error => exact (Machine.onlyObjects_raise error m).step
  | attachPeer thread peer =>
    change (Machine.attachPeer thread peer m).2.classPath = _ ∧
      m.TableStep (Machine.attachPeer thread peer m).2.table
    rw [Machine.attachPeer_apply]
    split
    · exact ⟨rfl, .same⟩
    · split <;> exact ⟨rfl, .same⟩
  | _ => exact ⟨rfl, .same⟩

/-- The accesses that move classes from one state to another. -/
def Access.Moves : Access σ → Prop
  | setState _ _ | transition _ _ _ => True
  | _ => False

/-- **Accesses and states.** An access moves no class, unless that is what it is for. -/
theorem Access.unmoved {access : Access σ} (h : ¬ access.Moves) (m : Machine σ) :
    m.table.Unmoved (access.apply m).2.table := by
  by_cases hplain : access.Plain
  · exact (Access.step hplain m).2.unmoved
  · cases access with
    | setState type state => exact absurd trivial h
    | transition type source target => exact absurd trivial h
    | setClassPath classPath => exact .refl m.table
    | loadBytes bytes =>
      exact .of_built
        (Loader.grows_loadBytes (Prod.eta (Loader.loadBytes bytes m.loader)).symm).built
    | _ => exact absurd trivial hplain

-- ---------------------------------------------------------------------------
-- Claimed classes
-- ---------------------------------------------------------------------------

namespace Machine

variable {m'' : Machine σ} {type other : ClassId}

/-- The state of the class keeps others from beginning an attempt to initialise it. -/
def Claimed (m : Machine σ) (type : ClassId) : Prop :=
  m.table.stateOf type = .beingInitialized ∨ m.table.stateOf type = .fullyInitialized

/-- Classes that were claimed are claimed. -/
def KeepsClaims (m m' : Machine σ) : Prop := ∀ type, m.Claimed type → m'.Claimed type

theorem exists_get?_of_claimed (h : m.Claimed type) : ∃ c, m.table.get? type = some c :=
  ClassTable.exists_get?_of_stateOf (by rcases h with h | h <;> rw [h] <;> decide)

theorem KeepsClaims.refl (m : Machine σ) : KeepsClaims m m := fun _ h => h

theorem KeepsClaims.trans (h : KeepsClaims m m') (h' : KeepsClaims m' m'') : KeepsClaims m m'' :=
  fun type hclaimed => h' type (h type hclaimed)

/-- Classes that have not moved are as much claimed as before. -/
theorem keepsClaims_of_unmoved (h : m.table.Unmoved m'.table) : KeepsClaims m m' := by
  intro type hclaimed
  rcases h.stateOf type with hsame | ⟨hnone, -⟩
  · rwa [Claimed, hsame]
  · obtain ⟨c, hget⟩ := exists_get?_of_claimed hclaimed
    rw [hnone] at hget
    cases hget

theorem Claimed.setState {state : ClassState}
    (hstate : state = .beingInitialized ∨ state = .fullyInitialized) (hclaimed : m.Claimed other) :
    (m.withTable (m.table.setState type state)).Claimed other := by
  by_cases heq : type = other
  · subst heq
    have hloaded : m.table.stateOf type ≠ .notLoaded := by
      rcases hclaimed with heq | heq <;> rw [heq] <;> nofun
    obtain ⟨c, hget⟩ := ClassTable.exists_get?_of_stateOf hloaded
    have hset : (m.withTable (m.table.setState type state)).table.stateOf type = state :=
      ClassTable.stateOf_setState_self hget
    exact hstate.imp hset.trans hset.trans
  · have hset : (m.withTable (m.table.setState type state)).table.stateOf other =
        m.table.stateOf other := ClassTable.stateOf_setState_of_ne heq
    exact hclaimed.imp hset.trans hset.trans

end Machine

end ClassHost
