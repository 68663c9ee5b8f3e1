import ClassHost.Proofs.Loader.History

/-!
# Array classes and their names

The name of an array class spells out what the class holds: one bracket for each dimension, and then
the component. `ArraysFitNames` says of a table that names and kinds agree in both directions and
that every array class of more than one dimension stands on an array class of one dimension less.

Loading by name keeps to this: a name that begins with a bracket is always resolved to an array.
Defining from bytes does not look at the name that the bytes give. A class handed in under a
bracketed name takes the place of the array class of that name, and arrays made from then on stand
on it. `arraysFitNames_iff` says that this is the only way in which a reachable table can fail:

* names and dimensions of array classes are right in every reachable table (`spelled_of_defines`,
  `dimension_of_defines`);
* all of `ArraysFitNames` holds exactly if no class that was handed in has a bracketed name.
-/

namespace ClassHost

/-- The name of an array class is spelled by its element. -/
def SpelledByElement (table : ClassTable) (c : LoadedClass) : Prop :=
  match c.kind with
  | .instances _ _ => True
  | .objectArray ⟨_, .component id⟩ =>
    ∃ component, table.get? id = some component ∧ c.name = "[L" ++ component.name ++ ";"
  | .objectArray ⟨_, .down id⟩ | .primitiveArray ⟨_, .down id⟩ =>
    ∃ down, table.get? id = some down ∧ c.name = "[" ++ down.name
  | .primitiveArray ⟨_, .component type⟩ => c.name = "[" ++ type.text

/-- An array class of several dimensions stands on one of the same kind and one dimension less. -/
def StandsOnArray (table : ClassTable) (c : LoadedClass) : Prop :=
  match c.kind with
  | .objectArray ⟨dimension, .down id⟩ =>
    ∃ down element, table.get? id = some down ∧
      down.kind = .objectArray ⟨dimension - 1, element⟩ ∧ 1 < dimension
  | .primitiveArray ⟨dimension, .down id⟩ =>
    ∃ down element, table.get? id = some down ∧
      down.kind = .primitiveArray ⟨dimension - 1, element⟩ ∧ 1 < dimension
  | _ => True

/-- Names and kinds of the classes in a table agree. -/
structure ArraysFitNames (table : ClassTable) : Prop where
  array_iff : ∀ id c, table.get? id = some c → (c.isArray = true ↔ IsBracketed c.name)
  spelled : ∀ id c, table.get? id = some c → SpelledByElement table c
  dimension : ∀ id c d, table.get? id = some c → c.dimension? = some d →
    d = leadingBrackets c.name ∧ d ≤ LoadPlan.maxDimensions
  stands : ∀ id c, table.get? id = some c → StandsOnArray table c

-- ---------------------------------------------------------------------------
-- What holds in every reachable table
-- ---------------------------------------------------------------------------

variable {table : ClassTable} {c : LoadedClass}

theorem spelled_of_defines (h : Defines table c.name c.kind) : SpelledByElement table c := by
  obtain ⟨name, kind, state, role, statics⟩ := c
  cases h with
  | located hhead hname => exact trivial
  | handedIn hname => exact trivial
  | objectArray hcomponent htype hname =>
    obtain ⟨component, hget, rfl⟩ := ClassTable.get?_of_find? htype
    refine ⟨component, hget, hname.trans ?_⟩
    rw [← String.toList_inj]
    simp
  | objectArrays hcomponent houter hdown hname =>
    obtain ⟨down, hget, hdown'⟩ := ClassTable.get?_of_find? hdown
    exact ⟨down, hget, hdown' ▸ hname⟩
  | primitiveArray hvoid hname => exact hname
  | primitiveArrays hvoid houter hdown hname =>
    obtain ⟨down, hget, hdown'⟩ := ClassTable.get?_of_find? hdown
    exact ⟨down, hget, hdown' ▸ hname⟩

/-- The name of an array class has a bracket for each dimension, and no more. -/
theorem dimension_of_defines {d : Nat} (h : Defines table c.name c.kind)
    (hd : c.dimension? = some d) :
    d = leadingBrackets c.name ∧ d ≤ LoadPlan.maxDimensions := by
  obtain ⟨name, kind, state, role, statics⟩ := c
  have hobjects := fun component =>
    leadingBrackets_arrayDescriptor (not_isBracketed_componentDescriptor component)
  have hprimitives := fun type => leadingBrackets_arrayDescriptor (not_isBracketed_text type)
  -- each of the four definitions of arrays gives its dimension and its name together
  cases h with
  | located hhead hname => exact nomatch hd
  | handedIn hname => exact nomatch hd
  | @objectArray component type _ _ hname =>
    obtain rfl := Option.some.inj hd
    exact ⟨(hname ▸ hobjects component 0).symm, by simp [LoadPlan.maxDimensions]⟩
  | @objectArrays component outer down _ houter _ hname =>
    obtain rfl := Option.some.inj hd
    exact ⟨(hname ▸ hobjects component (outer + 1)).symm, houter⟩
  | @primitiveArray type _ hname =>
    obtain rfl := Option.some.inj hd
    exact ⟨(hname ▸ hprimitives type 0).symm, by simp [LoadPlan.maxDimensions]⟩
  | @primitiveArrays type outer down _ houter _ hname =>
    obtain rfl := Option.some.inj hd
    exact ⟨(hname ▸ hprimitives type (outer + 1)).symm, houter⟩

/-- No class that was handed in has a bracketed name. -/
def HandsInNoArrays (table : ClassTable) : Prop :=
  ∀ id c file, table.get? id = some c → c.kind = .instances file none → ¬ IsBracketed c.name

/-- An array class has the name that it was made for. -/
theorem isBracketed_of_defines (h : Defines table c.name c.kind) (harray : c.isArray = true) :
    IsBracketed c.name := by
  obtain ⟨name, kind, state, role, statics⟩ := c
  cases h with
  | located _ _ => exact nomatch harray
  | handedIn _ => exact nomatch harray
  | objectArray _ _ hname => exact hname ▸ isBracketed_arrayDescriptor _ _
  | objectArrays _ _ _ hname => exact hname ▸ isBracketed_arrayDescriptor _ _
  | primitiveArray _ hname => exact hname ▸ isBracketed_arrayDescriptor _ _
  | primitiveArrays _ _ _ hname => exact hname ▸ isBracketed_arrayDescriptor _ _

theorem array_iff_of_defines (h : Defines table c.name c.kind)
    (hhanded : ∀ file, c.kind = .instances file none → ¬ IsBracketed c.name) :
    c.isArray = true ↔ IsBracketed c.name := by
  refine ⟨isBracketed_of_defines h, fun hbracket => ?_⟩
  obtain ⟨name, kind, state, role, statics⟩ := c
  cases h with
  | located hhead _ => exact absurd hbracket hhead
  | handedIn _ => exact absurd hbracket (hhanded _ rfl)
  | objectArray _ _ _ => rfl
  | objectArrays _ _ _ _ => rfl
  | primitiveArray _ _ => rfl
  | primitiveArrays _ _ _ _ => rfl

/-- A class with the descriptor of an array of objects is one, unless it was handed in. -/
theorem objectArray_of_name {component : String} {outer : Nat} (h : Defines table c.name c.kind)
    (hhanded : ∀ file, c.kind = .instances file none → ¬ IsBracketed c.name)
    (hname : c.name = arrayDescriptor (componentDescriptor component) outer) :
    ∃ element, c.kind = .objectArray ⟨outer + 1, element⟩ := by
  have hbracket : IsBracketed c.name := hname ▸ isBracketed_arrayDescriptor _ _
  have hplain := not_isBracketed_componentDescriptor component
  obtain ⟨name, kind, state, role, statics⟩ := c
  -- a descriptor has one element and one depth, and a class's is never that of a base type
  cases h with
  | located hhead _ => exact absurd hbracket hhead
  | handedIn _ => exact absurd hbracket (hhanded _ rfl)
  | @objectArray component' type _ _ hname' =>
    obtain ⟨-, rfl⟩ := arrayDescriptor_inj (not_isBracketed_componentDescriptor component') hplain
      (hname'.symm.trans hname)
    exact ⟨_, rfl⟩
  | @objectArrays component' outer' down _ _ _ hname' =>
    obtain ⟨-, rfl⟩ := arrayDescriptor_inj (not_isBracketed_componentDescriptor component') hplain
      (hname'.symm.trans hname)
    exact ⟨_, rfl⟩
  | @primitiveArray type _ hname' =>
    obtain ⟨heq, -⟩ :=
      arrayDescriptor_inj (not_isBracketed_text type) hplain (hname'.symm.trans hname)
    exact absurd heq.symm (componentDescriptor_ne_text component type)
  | @primitiveArrays type outer' down _ _ _ hname' =>
    obtain ⟨heq, -⟩ :=
      arrayDescriptor_inj (not_isBracketed_text type) hplain (hname'.symm.trans hname)
    exact absurd heq.symm (componentDescriptor_ne_text component type)

/-- A class with the descriptor of an array of primitives is one, unless it was handed in. -/
theorem primitiveArray_of_name {type : BaseType} {outer : Nat} (h : Defines table c.name c.kind)
    (hhanded : ∀ file, c.kind = .instances file none → ¬ IsBracketed c.name)
    (hname : c.name = arrayDescriptor type.text outer) :
    ∃ element, c.kind = .primitiveArray ⟨outer + 1, element⟩ := by
  have hbracket : IsBracketed c.name := hname ▸ isBracketed_arrayDescriptor _ _
  have hplain := not_isBracketed_text type
  obtain ⟨name, kind, state, role, statics⟩ := c
  -- as for object arrays, with the base type's letter in the element's place
  cases h with
  | located hhead _ => exact absurd hbracket hhead
  | handedIn _ => exact absurd hbracket (hhanded _ rfl)
  | @objectArray component type' _ _ hname' =>
    obtain ⟨heq, -⟩ := arrayDescriptor_inj (not_isBracketed_componentDescriptor component) hplain
      (hname'.symm.trans hname)
    exact absurd heq (componentDescriptor_ne_text component type)
  | @objectArrays component outer' down _ _ _ hname' =>
    obtain ⟨heq, -⟩ := arrayDescriptor_inj (not_isBracketed_componentDescriptor component) hplain
      (hname'.symm.trans hname)
    exact absurd heq (componentDescriptor_ne_text component type)
  | @primitiveArray type' _ hname' =>
    obtain ⟨-, rfl⟩ :=
      arrayDescriptor_inj (not_isBracketed_text type') hplain (hname'.symm.trans hname)
    exact ⟨_, rfl⟩
  | @primitiveArrays type' outer' down _ _ _ hname' =>
    obtain ⟨-, rfl⟩ :=
      arrayDescriptor_inj (not_isBracketed_text type') hplain (hname'.symm.trans hname)
    exact ⟨_, rfl⟩

theorem stands_of_defines
    (hall : ∀ id c, table.get? id = some c → Defines table c.name c.kind)
    (hhanded : HandsInNoArrays table) (h : Defines table c.name c.kind) :
    StandsOnArray table c := by
  obtain ⟨name, kind, state, role, statics⟩ := c
  cases h with
  | located _ _ => exact trivial
  | handedIn _ => exact trivial
  | objectArray _ _ _ => exact trivial
  | objectArrays hcomponent houter hdown hname =>
    -- the class below is found by the name of the level below, and that name says what it is
    obtain ⟨down, hget, hdown'⟩ := ClassTable.get?_of_find? hdown
    obtain ⟨element, hkind⟩ :=
      objectArray_of_name (hall _ _ hget) (fun file => hhanded _ _ file hget) hdown'
    exact ⟨down, element, hget, hkind, by omega⟩
  | primitiveArray _ _ => exact trivial
  | primitiveArrays hvoid houter hdown hname =>
    obtain ⟨down, hget, hdown'⟩ := ClassTable.get?_of_find? hdown
    obtain ⟨element, hkind⟩ :=
      primitiveArray_of_name (hall _ _ hget) (fun file => hhanded _ _ file hget) hdown'
    exact ⟨down, element, hget, hkind, by omega⟩

-- ---------------------------------------------------------------------------
-- Reachable tables
-- ---------------------------------------------------------------------------

/-- **Arrays in reachable tables.** Whatever a loader has been asked for, its array classes are
spelled by their elements and have a bracket in their name for each of their at most 255
dimensions. Bracketed names belong to array classes, and arrays of arrays stand on arrays of their
kind, exactly if no class that was handed in has a bracketed name. -/
theorem arraysFitNames_iff (calls : List Loader.Call) :
    (∀ id c, (Loader.after calls).table.get? id = some c →
      SpelledByElement (Loader.after calls).table c ∧
      ∀ d, c.dimension? = some d → d = leadingBrackets c.name ∧ d ≤ 255) ∧
    (ArraysFitNames (Loader.after calls).table ↔ HandsInNoArrays (Loader.after calls).table) := by
  have hall := fun id c => @Loader.defines_after calls id c
  refine ⟨fun id c hget => ⟨spelled_of_defines (hall id c hget),
    fun d => dimension_of_defines (hall id c hget)⟩, ?_⟩
  constructor
  -- only a class handed in as bytes can bear an array's name without being an array
  · intro hfit id c file hget hkind hbracket
    have harray := (hfit.array_iff id c hget).mpr hbracket
    simp [LoadedClass.isArray, hkind] at harray
  · intro hhanded
    exact {
      array_iff := fun id c hget =>
        array_iff_of_defines (hall id c hget) fun file => hhanded id c file hget
      spelled := fun id c hget => spelled_of_defines (hall id c hget)
      dimension := fun id c d hget => dimension_of_defines (hall id c hget)
      stands := fun id c hget => stands_of_defines hall hhanded (hall id c hget) }

/-- The file of a class that calls itself `[I`. -/
def bracketedFile : Bytes :=
  [0xCA, 0xFE, 0xBA, 0xBE, 0, 0, 0, 52, 0, 3, 7, 0, 2, 1, 0, 2, 91, 73,
    0, 0, 0, 1, 0, 0, 0, 0, 0, 0, 0, 0, 0, 0]

/-- A class handed in as `[I` is no array class, and `[[I` then stands on it. -/
theorem not_arraysFitNames_bracketedFile :
    ¬ ArraysFitNames (Loader.after [.loadBytes bracketedFile, .load (fun _ => none) "[[I"]).table ∧
    ∃ c c', (Loader.after [.loadBytes bracketedFile, .load (fun _ => none) "[[I"]).table.classes =
      #[c, c'] ∧ c.name = "[I" ∧ c.isArray = false ∧
      c'.name = "[[I" ∧ c'.kind = .primitiveArray ⟨2, .down ⟨0⟩⟩ := by
  have htable : (Loader.after [.loadBytes bracketedFile, .load (fun _ => none) "[[I"]).table =
      ⟨#[.ofKind "[I" (.instances ⟨0, 52, ⟨#[.className 2, .utf8 "[I"]⟩, 0, "[I", none, [], [], [],
        []⟩ none), .ofKind "[[I" (.primitiveArray ⟨2, .down ⟨0⟩⟩)]⟩ := by
    decide +kernel
  rw [htable]
  refine ⟨fun hfit => ?_, _, _, rfl, rfl, rfl, rfl, rfl⟩
  have harray := (hfit.array_iff ⟨0⟩ _ rfl).mpr (by decide)
  exact nomatch harray

end ClassHost
