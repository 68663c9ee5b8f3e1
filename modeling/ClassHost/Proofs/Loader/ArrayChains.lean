import ClassHost.Proofs.Loader.ArrayNames
import ClassHost.Proofs.Loader.Caching
import ClassHost.Proofs.Loader.PlanLevels

/-!
# What loading an array leaves behind

Loading an array by name looks for its outermost class first and goes inside until it comes upon a
class that is there. How far it has to go depends on all earlier loads, and yet the outcome is
always the same: in a table that has come about by loads by name alone, an array class never stands
without the classes inside it (`LoadedByName.exists_find?_of_mem`). So the classes that are missing
are the outer ones, and what a load adds is what was not there of the whole chain, innermost first
(`Loader.Makes.adds_array`).

`arrays_made` is all of it: the chain that the class of an array heads, what was added for it, and
what the class path was asked for. Places are counted without a limit here.
-/

namespace ClassHost

/-- The class that is named behind the brackets of a descriptor, if one is. -/
def elementClassName? (name : String) : Option String :=
  match name.toList.drop (leadingBrackets name) with
  | 'L' :: rest => some (String.ofList rest.dropLast)
  | _ => none

/-- The names of all classes that belong to an array, innermost first: its component, if that is a
class, and an array class for each bracket. -/
def arrayNames (name : String) : List String :=
  (elementClassName? name).toList ++ ((bracketLevels name).map Prod.snd).reverse

/-- The class of one dimension holds what its name says behind the bracket: the class of that name,
which is no array, or the very type of the letter. -/
def HoldsElement (table : ClassTable) (element : List Char) (c : LoadedClass) : Prop :=
  (∃ type component, c.kind = .objectArray ⟨1, .component type⟩ ∧
    table.get? type = some component ∧ component.isArray = false ∧
    element = 'L' :: component.name.toList ++ [';']) ∨
  ∃ type : BaseType, c.kind = .primitiveArray ⟨1, .component type⟩ ∧ element = [type.code]

/-- A class heads the chain of an array: going inside leads to a class for each bracket, under the
name without the brackets passed and of one dimension less each time, and the last one holds the
element. -/
structure HeadsArray (table : ClassTable) (name : String) (id : ClassId) : Prop where
  levels : ∀ passed < leadingBrackets name, ∃ place c, table.inside passed id = some place ∧
    table.get? place = some c ∧ c.name = String.ofList (name.toList.drop passed) ∧
    c.dimension? = some (leadingBrackets name - passed)
  innermost : ∃ place c, table.inside (leadingBrackets name - 1) id = some place ∧
    table.get? place = some c ∧ HoldsElement table (name.toList.drop (leadingBrackets name)) c

/-- All classes are of the kinds that loads by name make. -/
def LoadedByName (table : ClassTable) : Prop :=
  ∀ id c, table.get? id = some c →
    Defines table c.name c.kind ∧ ∀ file, c.kind ≠ .instances file none

variable {table : ClassTable} {name element component : String} {outer : Nat} {id : ClassId}
  {c : LoadedClass}

-- ---------------------------------------------------------------------------
-- Names and elements
-- ---------------------------------------------------------------------------

theorem elementClassName?_componentDescriptor (component : String) (outer : Nat) :
    elementClassName? (arrayDescriptor (componentDescriptor component) outer) = some component := by
  rw [elementClassName?, drop_leadingBrackets (not_isBracketed_componentDescriptor component),
    toList_componentDescriptor]
  simp

theorem elementClassName?_text (type : BaseType) (outer : Nat) :
    elementClassName? (arrayDescriptor type.text outer) = none := by
  rw [elementClassName?, drop_leadingBrackets (not_isBracketed_text type)]
  cases type <;> rfl

theorem arrayNames_arrayDescriptor (h : ¬ IsBracketed element) (outer : Nat) :
    arrayNames (arrayDescriptor element outer) =
      (elementClassName? (arrayDescriptor element outer)).toList ++
        (List.range (outer + 1)).map (arrayDescriptor element) := by
  have hlevels : (bracketLevels (arrayDescriptor element outer)).map Prod.snd =
      ((List.range (outer + 1)).map (arrayDescriptor element)).reverse := by
    rw [← levels_eq_bracketLevels h (), ArrayPlan.levels_build]
    refine List.ext_getElem (by simp) fun i hi _ => ?_
    simp
  rw [arrayNames, hlevels, List.reverse_reverse]

theorem elementClassName?_eq_of_plain (h : ¬ IsBracketed element) (outer other : Nat) :
    elementClassName? (arrayDescriptor element outer) =
      elementClassName? (arrayDescriptor element other) := by
  rw [elementClassName?, elementClassName?, drop_leadingBrackets h, drop_leadingBrackets h]

theorem arrayNames_succ (h : ¬ IsBracketed element) (outer : Nat) :
    arrayNames (arrayDescriptor element (outer + 1)) =
      arrayNames (arrayDescriptor element outer) ++ [arrayDescriptor element (outer + 1)] := by
  rw [arrayNames_arrayDescriptor h, arrayNames_arrayDescriptor h, List.range_succ, List.map_append,
    ← List.append_assoc, elementClassName?_eq_of_plain h (outer + 1) outer]
  rfl

/-- A name in brackets that stands for something is the descriptor of an array. -/
theorem Resolves.exists_element {plan : LoadPlan} (h : Resolves name plan)
    (hname : IsBracketed name) :
    ∃ element outer, ¬ IsBracketed element ∧ name = arrayDescriptor element outer := by
  cases h with
  | instanceClass hhead _ => exact absurd hname hhead
  | objectArray _ _ hname => exact ⟨_, _, not_isBracketed_componentDescriptor _, hname⟩
  | primitiveArray _ _ hname => exact ⟨_, _, not_isBracketed_text _, hname⟩

/-- What the class path is asked for to load an array is the class behind the brackets. -/
theorem elementClassName?_of_sought? {sought : String} (hname : IsBracketed name)
    (h : table.sought? name = some sought) : elementClassName? name = some sought := by
  have hclass := ClassTable.classFor?_of_sought? h
  rw [Command.classFor?] at hclass
  cases hplan : LoadPlan.resolve name with
  | error error =>
    rw [hplan] at hclass
    cases hclass
  | ok plan =>
    rw [hplan] at hclass
    cases resolves_of_resolve hplan with
    | instanceClass hhead _ => exact absurd hname hhead
    | objectArray _ _ hname =>
      rw [hname, elementClassName?_componentDescriptor, ← hclass]
      exact congrArg some (ArrayPlan.component_build _ _ _).symm
    | primitiveArray _ _ _ => cases hclass

-- ---------------------------------------------------------------------------
-- Chains
-- ---------------------------------------------------------------------------

/-- What stands in the table under the descriptor of an array. -/
structure StandsAs (table : ClassTable) (element : String) (outer : Nat) (id : ClassId)
    (c : LoadedClass) : Prop where
  get? : table.get? id = some c
  name : c.name = arrayDescriptor element outer
  dimension : c.dimension? = some (outer + 1)
  /-- There is an array class inside, or the element. -/
  inside : ∀ inner, outer = inner + 1 → ∃ down, table.elementClass? id = some down ∧
    table.find? (arrayDescriptor element inner) = some down
  innermost : outer = 0 → HoldsElement table element.toList c

namespace LoadedByName

/-- No array class has a name without brackets. -/
theorem isArray_of_component (h : LoadedByName table) (hcomponent : IsComponentName component)
    (hget : table.get? id = some c) (hname : c.name = component) : c.isArray = false := by
  obtain ⟨hdefines, hhanded⟩ := h id c hget
  have hiff := array_iff_of_defines hdefines fun file hkind => absurd hkind (hhanded file)
  cases harray : c.isArray with
  | false => rfl
  | true =>
    have hbracket : IsBracketed component := hname ▸ hiff.mp harray
    exact absurd (List.mem_of_mem_head? hbracket) hcomponent.noBracket

/-- The descriptor of an array leads to an array class, and the name inside it does too. -/
theorem exists_standsAs (h : LoadedByName table) (hplain : ¬ IsBracketed element)
    (hfind : table.find? (arrayDescriptor element outer) = some id) :
    ∃ c, StandsAs table element outer id c := by
  obtain ⟨c, hget, hname⟩ := ClassTable.get?_of_find? hfind
  obtain ⟨hdefines, hhanded⟩ := h id c hget
  have helement := ClassTable.elementClass?_of_get? hget
  refine ⟨c, ?_⟩
  obtain ⟨given, kind, state, role, statics⟩ := c
  -- the name is bracketed, so of the kinds of definition only the four of arrays are left; each gives
  -- the element and the level back by its own name
  cases hdefines with
  | located hhead _ =>
    have hbracket := isBracketed_arrayDescriptor element outer
    exact absurd (hname ▸ hbracket) hhead
  | handedIn _ => exact absurd rfl (hhanded _)
  | @objectArray component type hcomponent htype hgiven =>
    obtain ⟨rfl, rfl⟩ := arrayDescriptor_inj (not_isBracketed_componentDescriptor component) hplain
      (hgiven.symm.trans hname)
    obtain ⟨d, hd, hdname⟩ := ClassTable.get?_of_find? htype
    refine ⟨hget, hname, rfl, nofun, fun _ => .inl ⟨type, d, rfl, hd, ?_, ?_⟩⟩
    · exact h.isArray_of_component hcomponent hd hdname
    · rw [toList_componentDescriptor, hdname]
  | @objectArrays component inner down hcomponent houter hdown hgiven =>
    obtain ⟨rfl, rfl⟩ := arrayDescriptor_inj (not_isBracketed_componentDescriptor component) hplain
      (hgiven.symm.trans hname)
    refine ⟨hget, hname, rfl, fun _ hinner => ⟨down, helement, ?_⟩, nofun⟩
    rwa [← Nat.succ.inj hinner]
  | @primitiveArray type hvoid hgiven =>
    obtain ⟨rfl, rfl⟩ := arrayDescriptor_inj (not_isBracketed_text type) hplain
      (hgiven.symm.trans hname)
    exact ⟨hget, hname, rfl, nofun, fun _ => .inr ⟨type, rfl, String.toList_singleton _⟩⟩
  | @primitiveArrays type inner down hvoid houter hdown hgiven =>
    obtain ⟨rfl, rfl⟩ := arrayDescriptor_inj (not_isBracketed_text type) hplain
      (hgiven.symm.trans hname)
    refine ⟨hget, hname, rfl, fun _ hinner => ⟨down, helement, ?_⟩, nofun⟩
    rwa [← Nat.succ.inj hinner]

/-- **Going inside** an array class leads down one bracket at a time. -/
theorem exists_inside (h : LoadedByName table) (hplain : ¬ IsBracketed element)
    (hfind : table.find? (arrayDescriptor element outer) = some id) {passed : Nat}
    (hpassed : passed ≤ outer) :
    ∃ place c, table.inside passed id = some place ∧
      table.find? (arrayDescriptor element (outer - passed)) = some place ∧
      StandsAs table element (outer - passed) place c := by
  -- one level is passed at a time: the class found for it is found by its name, too
  induction passed generalizing outer id with
  | zero =>
    obtain ⟨c, hstands⟩ := h.exists_standsAs hplain hfind
    exact ⟨id, c, rfl, hfind, hstands⟩
  | succ passed ih =>
    obtain ⟨inner, rfl⟩ := Nat.exists_eq_succ_of_ne_zero (Nat.ne_of_gt (Nat.lt_of_lt_of_le
      (Nat.succ_pos passed) hpassed))
    obtain ⟨c, hstands⟩ := h.exists_standsAs hplain hfind
    obtain ⟨down, helement, hdown⟩ := hstands.inside inner rfl
    obtain ⟨place, d, hinside, hrest⟩ := ih hdown (Nat.le_of_succ_le_succ hpassed)
    rw [Nat.succ_sub_succ]
    refine ⟨place, d, ?_, hrest⟩
    rw [ClassTable.inside, helement, Option.bind_some, hinside]

/-- No array class stands without the classes inside it, its component included. -/
theorem exists_find?_of_mem (h : LoadedByName table) (hwell : table.WellFormed)
    (hplain : ¬ IsBracketed element)
    (hfind : table.find? (arrayDescriptor element outer) = some id) {other : String}
    (hother : other ∈ arrayNames (arrayDescriptor element outer)) :
    ∃ place, table.find? other = some place := by
  rw [arrayNames_arrayDescriptor hplain, List.mem_append] at hother
  -- the name is the component's, found innermost, or that of one of the levels
  rcases hother with hother | hother
  · obtain ⟨place, c, -, -, hstands⟩ := h.exists_inside hplain hfind (Nat.le_refl outer)
    rcases hstands.innermost (Nat.sub_self outer) with ⟨type, d, -, hget, -, helement⟩ |
      ⟨type, -, helement⟩
    · obtain rfl : element = componentDescriptor d.name := by
        rw [← String.toList_inj, helement, toList_componentDescriptor]
      rw [elementClassName?_componentDescriptor] at hother
      obtain rfl : other = d.name := by simpa using hother
      exact ⟨type, hwell.found type d hget⟩
    · obtain rfl : element = type.text := by
        rw [← String.toList_inj, helement, BaseType.text, String.toList_singleton]
      rw [elementClassName?_text] at hother
      exact absurd hother List.not_mem_nil
  · obtain ⟨inner, hinner, rfl⟩ := List.mem_map.mp hother
    have hle : inner ≤ outer := Nat.le_of_lt_succ (List.mem_range.mp hinner)
    obtain ⟨place, -, -, hplace, -⟩ := h.exists_inside hplain hfind (Nat.sub_le outer inner)
    rw [Nat.sub_sub_self hle] at hplace
    exact ⟨place, hplace⟩

/-- The class of a descriptor heads the chain of the array. -/
theorem headsArray (h : LoadedByName table) (hplain : ¬ IsBracketed element)
    (hfind : table.find? (arrayDescriptor element outer) = some id) :
    HeadsArray table (arrayDescriptor element outer) id where
  levels passed hpassed := by
    rw [leadingBrackets_arrayDescriptor hplain] at hpassed ⊢
    have hle : passed ≤ outer := Nat.le_of_lt_succ hpassed
    obtain ⟨place, c, hinside, -, hstands⟩ := h.exists_inside hplain hfind hle
    refine ⟨place, c, hinside, hstands.get?, ?_, ?_⟩
    · rw [hstands.name, drop_arrayDescriptor element hle]
    · rw [hstands.dimension, Nat.succ_sub hle]
  innermost := by
    obtain ⟨place, c, hinside, -, hstands⟩ := h.exists_inside hplain hfind (Nat.le_refl outer)
    rw [drop_leadingBrackets hplain, leadingBrackets_arrayDescriptor hplain]
    exact ⟨place, c, hinside, hstands.get?, hstands.innermost (Nat.sub_self outer)⟩

/-- A class whose name has brackets was made for that name. -/
theorem exists_resolves (h : LoadedByName table) (hfind : table.find? name = some id)
    (hname : IsBracketed name) : ∃ plan, Resolves name plan := by
  obtain ⟨c, hget, rfl⟩ := ClassTable.get?_of_find? hfind
  obtain ⟨hdefines, hhanded⟩ := h id c hget
  obtain ⟨given, kind, state, role, statics⟩ := c
  cases hdefines with
  | located hhead _ => exact absurd hname hhead
  | handedIn _ => exact absurd rfl (hhanded _)
  | objectArray hcomponent _ hgiven => exact ⟨_, .objectArray hcomponent (by decide) hgiven⟩
  | objectArrays hcomponent houter _ hgiven => exact ⟨_, .objectArray hcomponent houter hgiven⟩
  | primitiveArray hvoid hgiven => exact ⟨_, .primitiveArray hvoid (by decide) hgiven⟩
  | primitiveArrays hvoid houter _ hgiven => exact ⟨_, .primitiveArray hvoid houter hgiven⟩

/-- An array of objects asks for its component if that is not there, however many of its levels are:
none is there without the component. -/
theorem sought?_objectArray (h : LoadedByName table) (hwell : table.WellFormed)
    (hcomponent : IsComponentName component) (houter : outer < LoadPlan.maxDimensions) :
    table.sought? (arrayDescriptor (componentDescriptor component) outer) =
      (some component).filter fun component => (table.find? component).isNone := by
  have hplain := not_isBracketed_componentDescriptor component
  -- if a level is there, the search ends there, and neither side asks
  have hfound : ∀ {outer id},
      table.find? (arrayDescriptor (componentDescriptor component) outer) = some id →
      table.sought? (arrayDescriptor (componentDescriptor component) outer) =
        (some component).filter fun component => (table.find? component).isNone := by
    intro outer id hfind
    have hmem : component ∈ arrayNames (arrayDescriptor (componentDescriptor component) outer) := by
      rw [arrayNames_arrayDescriptor hplain, elementClassName?_componentDescriptor]
      exact List.mem_cons_self
    obtain ⟨place, hplace⟩ := h.exists_find?_of_mem hwell hplain hfind hmem
    simp [ClassTable.sought?_of_find?_some hfind, Option.filter, hplace]
  induction outer with
  | zero =>
    cases hfind : table.find? (arrayDescriptor (componentDescriptor component) 0) with
    | some id => exact hfound hfind
    | none =>
      -- with no level there, what is asked for is the component, unless it is there
      rw [ClassTable.sought?_objectArray hcomponent hfind]
      cases hthere : table.find? component with
      | some place => simp [ClassTable.sought?_of_find?_some hthere, Option.filter, hthere]
      | none => simp [ClassTable.sought?_instanceClass hcomponent.resolve hthere, Option.filter, hthere]
  | succ outer ih =>
    cases hfind : table.find? (arrayDescriptor (componentDescriptor component) (outer + 1)) with
    | some id => exact hfound hfind
    | none =>
      rw [ClassTable.sought?_objectArrays hcomponent houter hfind]
      exact ih (Nat.lt_of_succ_lt houter)

theorem sought?_of_resolves (h : LoadedByName table) (hwell : table.WellFormed) {plan : LoadPlan}
    (hresolves : Resolves name plan) (hname : IsBracketed name) :
    table.sought? name =
      (elementClassName? name).filter fun component => (table.find? component).isNone := by
  cases hresolves with
  | instanceClass hhead _ => exact absurd hname hhead
  | objectArray hcomponent houter hgiven =>
    rw [hgiven, elementClassName?_componentDescriptor]
    exact h.sought?_objectArray hwell hcomponent houter
  | primitiveArray hvoid houter hgiven =>
    rw [hgiven, elementClassName?_text]
    exact ClassTable.sought?_primitiveArray hvoid houter

end LoadedByName

-- ---------------------------------------------------------------------------
-- Loads
-- ---------------------------------------------------------------------------

namespace Loader

variable {finder : Finder} {loader loader' : Loader}

/-- A class path is asked for what is sought, and for nothing else. -/
theorem Makes.searched (h : Makes finder name loader id loader') :
    loader'.searched = loader.searched ++ (loader.table.sought? name).toArray := by
  -- only a class located afresh is asked for, and the levels ask for what their component does
  induction h with
  | present hfind => simp [ClassTable.sought?_of_find?_some hfind]
  | located hplain hfree hread =>
    simp [ClassTable.sought?_instanceClass hplain hfree, add, ask]
  | objectArray hcomponent hfree h ih =>
    rw [ClassTable.sought?_objectArray hcomponent (h.built.find?_eq_none hfree)]
    exact ih
  | objectArrays hcomponent houter hfree h ih =>
    rw [ClassTable.sought?_objectArrays hcomponent houter (h.built.find?_eq_none hfree)]
    exact ih
  | primitiveArray hvoid _ =>
    rw [ClassTable.sought?_primitiveArray hvoid (by decide)]
    exact (Array.append_empty).symm
  | primitiveArrays hvoid houter hfree h ih =>
    rw [ClassTable.sought?_primitiveArray hvoid houter]
    rw [ClassTable.sought?_primitiveArray hvoid (Nat.lt_of_succ_lt houter)] at ih
    exact ih

/-- **One search.** Whatever a load comes to, the class path is asked for what is sought. -/
theorem searched_load (finder : Finder) (name : String) (loader : Loader) :
    (load finder name loader).2.searched =
      loader.searched ++ (loader.table.sought? name).toArray := by
  cases hrun : load finder name loader with
  | mk r loader' =>
    cases loads_load hrun with
    | made h => exact h.searched
    | missed hsought _ => simp [hsought, ask]
    | malformed hplan => simp [ClassTable.sought?_of_malformed hplan]

/-- Classes that were added: these, in this order, all as new. -/
structure Adds (loader : Loader) (names : List String) (loader' : Loader) : Prop where
  exists_added : ∃ added, loader'.table.classes.toList = loader.table.classes.toList ++ added ∧
    added.map LoadedClass.name = names ∧ ∀ c ∈ added, c.state = .loaded

theorem Adds.refl (loader : Loader) : Adds loader [] loader :=
  ⟨[], (List.append_nil _).symm, rfl, nofun⟩

theorem Adds.add {names : List String} (h : Adds loader names loader') (name : String)
    (kind : ClassKind) : Adds loader (names ++ [name]) (loader'.add name kind) := by
  obtain ⟨added, hclasses, hnames, hstates⟩ := h
  refine ⟨added ++ [.ofKind name kind], ?_, by simp [hnames, LoadedClass.ofKind], ?_⟩
  · rw [Loader.add, ClassTable.push, Array.toList_push, hclasses, List.append_assoc]
  · intro c hc
    rcases List.mem_append.mp hc with hc | hc
    · exact hstates c hc
    · rw [List.mem_singleton.mp hc]
      rfl

/-- A component is added if it is not there. -/
theorem Makes.adds_component (hcomponent : IsComponentName component)
    (h : Makes finder component loader id loader') :
    Adds loader ([component].filter fun other => (loader.table.find? other).isNone) loader' := by
  have hplain : ¬ IsBracketed component := fun hbracket =>
    hcomponent.noBracket (List.mem_of_mem_head? hbracket)
  cases h with
  | present hfind => simpa [hfind] using Adds.refl _
  | @located _ loader file source _ hfree _ =>
    have hasked : Adds loader [] (loader.ask component) :=
      ⟨[], (List.append_nil _).symm, rfl, nofun⟩
    simpa [hfree] using hasked.add component (.instances file source)
  | objectArray _ _ _ => exact absurd (isBracketed_arrayDescriptor _ _) hplain
  | objectArrays _ _ _ _ => exact absurd (isBracketed_arrayDescriptor _ _) hplain
  | primitiveArray _ _ => exact absurd (isBracketed_arrayDescriptor _ _) hplain
  | primitiveArrays _ _ _ _ => exact absurd (isBracketed_arrayDescriptor _ _) hplain

/-- One more level, which is new. -/
theorem Adds.level {middle : Loader} {kind : ClassKind} (hplain : ¬ IsBracketed element)
    (h : Adds loader ((arrayNames (arrayDescriptor element outer)).filter fun other =>
      (loader.table.find? other).isNone) middle)
    (hfree : loader.table.find? (arrayDescriptor element (outer + 1)) = none) :
    Adds loader ((arrayNames (arrayDescriptor element (outer + 1))).filter fun other =>
        (loader.table.find? other).isNone)
      (middle.add (arrayDescriptor element (outer + 1)) kind) := by
  rw [arrayNames_succ hplain, List.filter_append, List.filter_cons_of_pos (by simp [hfree]),
    List.filter_nil]
  exact h.add _ _

/-- **Levels that are added**: those that are not there, innermost first, after the component. -/
theorem Makes.adds_array (hload : LoadedByName loader.table) (hwell : loader.table.WellFormed)
    (hplain : ¬ IsBracketed element)
    (h : Makes finder (arrayDescriptor element outer) loader id loader') :
    Adds loader ((arrayNames (arrayDescriptor element outer)).filter fun other =>
      (loader.table.find? other).isNone) loader' := by
  generalize hname : arrayDescriptor element outer = name at h
  -- the arrays appended are the missing levels: a level already there ends the search for the ones
  -- inside it
  induction h generalizing outer with
  | present hfind =>
    subst hname
    rw [List.filter_eq_nil_iff.mpr fun other hother => ?_]
    · exact .refl _
    · obtain ⟨place, hplace⟩ := hload.exists_find?_of_mem hwell hplain hfind hother
      simp [hplace]
  | located hresolve _ _ =>
    cases resolves_of_resolve hresolve with
    | instanceClass hhead _ => exact absurd (hname ▸ isBracketed_arrayDescriptor element outer) hhead
  | @objectArray component loader middle type hcomponent hfree h _ =>
    obtain ⟨rfl, rfl⟩ := arrayDescriptor_inj hplain (not_isBracketed_componentDescriptor _) hname
    have hbefore := h.built.find?_eq_none hfree
    rw [arrayNames_arrayDescriptor hplain, elementClassName?_componentDescriptor,
      List.filter_append]
    have hlevel := (h.adds_component hcomponent).add
      (arrayDescriptor (componentDescriptor component) 0) (.objectArray ⟨1, .component type⟩)
    simpa [hbefore] using hlevel
  | @objectArrays component inner loader middle down _ _ hfree h ih =>
    obtain ⟨rfl, rfl⟩ := arrayDescriptor_inj hplain (not_isBracketed_componentDescriptor _) hname
    exact (ih hload hwell rfl).level hplain (h.built.find?_eq_none hfree)
  | @primitiveArray type loader _ hfree =>
    obtain ⟨rfl, rfl⟩ := arrayDescriptor_inj hplain (not_isBracketed_text _) hname
    rw [arrayNames_arrayDescriptor hplain, elementClassName?_text]
    have hlevel := (Adds.refl loader).add (arrayDescriptor type.text 0)
      (.primitiveArray ⟨1, .component type⟩)
    simpa [hfree] using hlevel
  | @primitiveArrays type inner loader middle down _ _ hfree h ih =>
    obtain ⟨rfl, rfl⟩ := arrayDescriptor_inj hplain (not_isBracketed_text _) hname
    exact (ih hload hwell rfl).level hplain (h.built.find?_eq_none hfree)

-- ---------------------------------------------------------------------------
-- Loaders that are asked for names only
-- ---------------------------------------------------------------------------

/-- Loads by name take class files from their class paths, and hand nothing in. -/
theorem loadedByName_afterLoads (loads : List (Finder × String)) :
    LoadedByName (afterLoads loads).table :=
  fun _ _ hget => ⟨defines_after _ hget, fun _ => source_of_afterLoads hget⟩

/-- **Arrays.** After any loads by name, over class paths that may differ from load to load, a load
of a name in brackets

* may ask the class path for the class behind the brackets, once, and for nothing else, so that an
  array of primitives is made without a class path;
* and if it returns a class, then that class heads the chain that the name tells (`HeadsArray`), the
  classes that were added are those of the chain that were not there, the component first and then
  the arrays from the inside out, all as new, and the class path has been asked for the component
  exactly if that was not there. -/
theorem arrays_made (loads : List (Finder × String)) (finder : Finder) {name : String}
    (hname : IsBracketed name) {r : Except Throwable (Option ClassId)} {loader' : Loader}
    (hrun : load finder name (afterLoads loads) = (r, loader')) :
    (loader'.searched = (afterLoads loads).searched ∨
      ∃ component, elementClassName? name = some component ∧
        loader'.searched = (afterLoads loads).searched.push component) ∧
    ∀ id, r = .ok (some id) →
      HeadsArray loader'.table name id ∧
      Adds (afterLoads loads) ((arrayNames name).filter fun other =>
        ((afterLoads loads).table.find? other).isNone) loader' ∧
      loader'.searched = (afterLoads loads).searched ++
        ((elementClassName? name).filter fun component =>
          ((afterLoads loads).table.find? component).isNone).toArray := by
  have hsearched := searched_load finder name (afterLoads loads)
  rw [hrun] at hsearched
  refine ⟨?_, fun id hid => ?_⟩
  · cases hsought : (afterLoads loads).table.sought? name with
    | none => exact .inl (by simpa [hsought] using hsearched)
    | some sought =>
      refine .inr ⟨sought, elementClassName?_of_sought? hname hsought, ?_⟩
      simpa [hsought] using hsearched
  · subst hid
    -- the table left is that of a longer row of loads, so it is loaded by name as well
    have hafter : afterLoads (loads ++ [(finder, name)]) = loader' :=
      (afterLoads_concat loads finder name).trans (congrArg Prod.snd hrun)
    have hload := loadedByName_afterLoads loads
    have hload' : LoadedByName loader'.table := hafter ▸ loadedByName_afterLoads _
    cases loads_load hrun with
    | made hmade =>
      obtain ⟨plan, hresolves⟩ := hload'.exists_resolves hmade.find? hname
      have hsought := hload.sought?_of_resolves (wellFormed_afterLoads loads) hresolves hname
      obtain ⟨element, outer, hplain, rfl⟩ := hresolves.exists_element hname
      refine ⟨hload'.headsArray hplain hmade.find?,
        hmade.adds_array hload (wellFormed_afterLoads loads) hplain, ?_⟩
      rw [hsearched, hsought]
    | missed _ hmisses => exact nomatch hmisses

/-- With `A` and its array there, two levels are added for three brackets, and nothing is searched
for. -/
theorem letterPath_arrays_made :
    IsBracketed "[[[LA;" ∧
    ∃ loader', load letterPath "[[[LA;" (afterLoads [(letterPath, "[LA;")]) =
        (.ok (some ⟨3⟩), loader') ∧
      HeadsArray loader'.table "[[[LA;" ⟨3⟩ ∧
      Adds (afterLoads [(letterPath, "[LA;")]) ["[[LA;", "[[[LA;"] loader' ∧
      loader'.searched = #["A"] := by
  have hname : IsBracketed "[[[LA;" := by decide
  have hresult : (load letterPath "[[[LA;" (afterLoads [(letterPath, "[LA;")])).1 =
      .ok (some ⟨3⟩) := by
    decide +kernel
  have hmissing : ((arrayNames "[[[LA;").filter fun other =>
      ((afterLoads [(letterPath, "[LA;")]).table.find? other).isNone) = ["[[LA;", "[[[LA;"] := by
    decide +kernel
  have hsought : (afterLoads [(letterPath, "[LA;")]).searched ++
      ((elementClassName? "[[[LA;").filter fun component =>
        ((afterLoads [(letterPath, "[LA;")]).table.find? component).isNone).toArray = #["A"] := by
    decide +kernel
  have hrun : load letterPath "[[[LA;" (afterLoads [(letterPath, "[LA;")]) =
      (.ok (some ⟨3⟩), (load letterPath "[[[LA;" (afterLoads [(letterPath, "[LA;")])).2) :=
    Prod.ext hresult rfl
  obtain ⟨-, hmade⟩ := arrays_made [(letterPath, "[LA;")] letterPath hname hrun
  obtain ⟨hheads, hadds, hsearched⟩ := hmade ⟨3⟩ rfl
  exact ⟨hname, _, hrun, hheads, hmissing ▸ hadds, hsearched.trans hsought⟩

end Loader

end ClassHost
