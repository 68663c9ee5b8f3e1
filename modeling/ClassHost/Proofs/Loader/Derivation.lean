import ClassHost.Proofs.Effect
import ClassHost.Proofs.Loader.Construction
import ClassHost.Proofs.Loader.Searches

/-!
# How a load goes

A load by name is a search with early exits, and it may come upon classes that are there already at
any depth. `Makes` is what it does when it ends with a class: a derivation that says which class was
found in the table, which file was read, and which array classes were added, innermost first. A load
that ends without a class has read one file, the one of the class or of the component, and that file
was missing or refused (`Loads`).

`loads_load` is the one place where the procedure is taken apart. What loads keep or bring about is
shown by induction on `Makes`.

* `Finder.read` is what a class path has for a plain name; neither the table nor earlier searches
  matter to it.
* `Makes.find?` and `Makes.find?_of_length_lt`: the name that was asked for leads to the class, and
  no longer names are defined on the way.
-/

namespace ClassHost

/-- The class file that a class path has for a name, and where. -/
def Finder.read (finder : Finder) (name : String) : Except Throwable (Option (ClassFile × Source)) :=
  match finder name with
  | none => .ok none
  | some found =>
    match ClassFile.parse found.bytes with
    | .error fault => .error (.classFormat name (.unreadable found.source.text fault))
    | .ok file =>
      if file.thisClass ≠ name then .error (.classFormat name (.wrongName file.thisClass))
      else .ok (some (file, found.source))

/-- A file that was read comes from where the class path found it, and is of that name. -/
theorem Finder.located_of_read {finder : Finder} {name : String} {file : ClassFile}
    {source : Source} (h : finder.read name = .ok (some (file, source))) :
    ∃ found, finder name = some found ∧ found.source = source ∧
      ClassFile.parse found.bytes = .ok file ∧ file.thisClass = name := by
  unfold Finder.read at h
  split at h
  · cases h
  · rename_i found hfound
    split at h
    · cases h
    · rename_i hparse
      split at h
      · cases h
      · rename_i hname
        obtain ⟨rfl, rfl⟩ := Prod.mk.inj (Option.some.inj (Except.ok.inj h))
        exact ⟨found, hfound, rfl, hparse, Decidable.not_not.mp hname⟩

namespace Loader

open Effect

/-- The loader after it has searched for a name. -/
def ask (loader : Loader) (name : String) : Loader :=
  { loader with searched := loader.searched.push name }

/-- The loader with one more class. -/
def add (loader : Loader) (name : String) (kind : ClassKind) : Loader :=
  { loader with table := loader.table.push (.ofKind name kind) }

/-- The place that the next class gets. -/
def next (loader : Loader) : ClassId := ⟨loader.table.classes.size⟩

@[simp] theorem ask_table (loader : Loader) (name : String) :
    (loader.ask name).table = loader.table := rfl

/-- A load of a name ends with a class: how it came about, and what became of the loader. -/
inductive Makes (finder : Finder) : String → Loader → ClassId → Loader → Prop where
  /-- The class was there. -/
  | present {name : String} {loader : Loader} {id : ClassId}
      (hfind : loader.table.find? name = some id) : Makes finder name loader id loader
  /-- The class was read. -/
  | located {name : String} {loader : Loader} {file : ClassFile} {source : Source}
      (hplain : LoadPlan.resolve name = .ok (.instanceClass name))
      (hfree : loader.table.find? name = none)
      (hread : finder.read name = .ok (some (file, source))) :
      Makes finder name loader loader.next
        ((loader.ask name).add name (.instances file (some source)))
  | objectArray {component : String} {loader middle : Loader} {type : ClassId}
      (hcomponent : IsComponentName component)
      (hfree : middle.table.find? (arrayDescriptor (componentDescriptor component) 0) = none)
      (h : Makes finder component loader type middle) :
      Makes finder (arrayDescriptor (componentDescriptor component) 0) loader middle.next
        (middle.add (arrayDescriptor (componentDescriptor component) 0)
          (.objectArray ⟨1, .component type⟩))
  | objectArrays {component : String} {outer : Nat} {loader middle : Loader} {down : ClassId}
      (hcomponent : IsComponentName component) (houter : outer + 1 < LoadPlan.maxDimensions)
      (hfree : middle.table.find?
        (arrayDescriptor (componentDescriptor component) (outer + 1)) = none)
      (h : Makes finder (arrayDescriptor (componentDescriptor component) outer) loader down
        middle) :
      Makes finder (arrayDescriptor (componentDescriptor component) (outer + 1)) loader middle.next
        (middle.add (arrayDescriptor (componentDescriptor component) (outer + 1))
          (.objectArray ⟨outer + 2, .down down⟩))
  | primitiveArray {type : BaseType} {loader : Loader} (hvoid : type ≠ .void)
      (hfree : loader.table.find? (arrayDescriptor type.text 0) = none) :
      Makes finder (arrayDescriptor type.text 0) loader loader.next
        (loader.add (arrayDescriptor type.text 0) (.primitiveArray ⟨1, .component type⟩))
  | primitiveArrays {type : BaseType} {outer : Nat} {loader middle : Loader} {down : ClassId}
      (hvoid : type ≠ .void) (houter : outer + 1 < LoadPlan.maxDimensions)
      (hfree : middle.table.find? (arrayDescriptor type.text (outer + 1)) = none)
      (h : Makes finder (arrayDescriptor type.text outer) loader down middle) :
      Makes finder (arrayDescriptor type.text (outer + 1)) loader middle.next
        (middle.add (arrayDescriptor type.text (outer + 1))
          (.primitiveArray ⟨outer + 2, .down down⟩))

/-- The only file that was read for a load is missing, or refused. -/
inductive Misses (finder : Finder) (sought : String) : Except Throwable (Option ClassId) → Prop where
  | missing (hread : finder.read sought = .ok none) : Misses finder sought (.ok none)
  | refused {error : Throwable} (hread : finder.read sought = .error error) :
      Misses finder sought (.error error)

/-- All that a load of a name can come to. -/
inductive Loads (finder : Finder) (name : String) (loader : Loader) :
    Except Throwable (Option ClassId) → Loader → Prop where
  | made {id : ClassId} {loader' : Loader} (h : Makes finder name loader id loader') :
      Loads finder name loader (.ok (some id)) loader'
  | missed {sought : String} {r : Except Throwable (Option ClassId)}
      (hsought : loader.table.sought? name = some sought) (h : Misses finder sought r) :
      Loads finder name loader r (loader.ask sought)
  | malformed {error : DescriptorError} (h : LoadPlan.resolve name = .error error) :
      Loads finder name loader (.error (.descriptor error)) loader

variable {finder : Finder} {name : String} {id : ClassId} {loader loader' : Loader}

-- ---------------------------------------------------------------------------
-- What a derivation defines
-- ---------------------------------------------------------------------------

/-- The class is there in the end, under the name that was asked for. -/
theorem Makes.find? (h : Makes finder name loader id loader') :
    loader'.table.find? name = some id := by
  cases h with
  | present hfind => exact hfind
  | located _ hfree _ => exact (ClassTable.find?_push_of_none hfree).trans (if_pos rfl)
  | objectArray _ hfree _ => exact (ClassTable.find?_push_of_none hfree).trans (if_pos rfl)
  | objectArrays _ _ hfree _ => exact (ClassTable.find?_push_of_none hfree).trans (if_pos rfl)
  | primitiveArray _ hfree => exact (ClassTable.find?_push_of_none hfree).trans (if_pos rfl)
  | primitiveArrays _ _ hfree _ => exact (ClassTable.find?_push_of_none hfree).trans (if_pos rfl)

theorem find?_add_of_length_lt {longer : String} {kind : ClassKind}
    (hfree : loader.table.find? longer = none) (hlt : name.toList.length < longer.toList.length) :
    (loader.add name kind).table.find? longer = none := by
  have hne : name ≠ longer := fun heq => absurd hlt (heq ▸ Nat.lt_irrefl _)
  exact (ClassTable.find?_push_of_none hfree).trans (if_neg hne)

/-- Only the name that was asked for and shorter ones are defined on the way. -/
theorem Makes.find?_of_length_lt {longer : String} (h : Makes finder name loader id loader')
    (hfree : loader.table.find? longer = none)
    (hlt : name.toList.length < longer.toList.length) : loader'.table.find? longer = none := by
  -- every class made on the way has a name no longer than the one asked for
  induction h with
  | present _ => exact hfree
  | @located name loader _ _ _ _ _ =>
    have hasked : (loader.ask name).table.find? longer = none := hfree
    exact find?_add_of_length_lt hasked hlt
  | objectArray _ _ _ ih =>
    refine find?_add_of_length_lt (ih hfree (Nat.lt_of_le_of_lt ?_ hlt)) hlt
    simp
    omega
  | objectArrays _ _ _ _ ih =>
    refine find?_add_of_length_lt (ih hfree (Nat.lt_of_le_of_lt ?_ hlt)) hlt
    simp
  | primitiveArray _ _ => exact find?_add_of_length_lt hfree hlt
  | primitiveArrays _ _ _ _ ih =>
    refine find?_add_of_length_lt (ih hfree (Nat.lt_of_le_of_lt ?_ hlt)) hlt
    simp

/-- The classes that are added can be made from what is in the table by then. -/
theorem Makes.built (h : Makes finder name loader id loader') :
    Built loader.table loader'.table := by
  induction h with
  | present _ => exact .refl
  | located hplain hfree hread =>
    cases resolves_of_resolve hplain with
    | instanceClass hhead hne =>
      obtain ⟨_, -, -, -, hname⟩ := Finder.located_of_read hread
      exact .add .refl hfree (.located hhead hname)
  | objectArray hcomponent hfree h ih =>
    exact .add ih hfree (.objectArray hcomponent h.find? rfl)
  | objectArrays hcomponent houter hfree h ih =>
    exact .add ih hfree (.objectArrays hcomponent houter h.find? rfl)
  | primitiveArray hvoid hfree => exact .add .refl hfree (.primitiveArray hvoid rfl)
  | primitiveArrays hvoid houter hfree h ih =>
    exact .add ih hfree (.primitiveArrays hvoid houter h.find? rfl)

-- ---------------------------------------------------------------------------
-- The procedure
-- ---------------------------------------------------------------------------

variable {r : Except Throwable (Option ClassId)}

theorem find?_apply (name : String) (loader : Loader) :
    find? name loader = (.ok (loader.table.find? name), loader) := rfl

theorem search_apply (finder : Finder) (name : String) (loader : Loader) :
    search finder name loader = (.ok (finder name), loader.ask name) := rfl

theorem parse_of_ok {name origin : String} {bytes : Bytes} {file : ClassFile}
    (h : ClassFile.parse bytes = .ok file) (loader : Loader) :
    parse name origin bytes loader = (.ok file, loader) := by
  rw [parse, h]
  rfl

theorem parse_of_error {name origin : String} {bytes : Bytes} {fault : ClassFileFault}
    (h : ClassFile.parse bytes = .error fault) (loader : Loader) :
    parse name origin bytes loader =
      (.error (.classFormat name (.unreadable origin fault)), loader) := by
  rw [parse, h]
  rfl

theorem define_of_free {kind : ClassKind} (hfree : loader.table.find? name = none) :
    define name kind loader = (.ok loader.next, loader.add name kind) := by
  change (Except.ok (loader.table.define name kind).1,
    { loader with table := (loader.table.define name kind).2 }) = _
  rw [ClassTable.define_of_none hfree]
  rfl

/-- A step that looks a name up first is a load of the name if it is one where the name is free. -/
theorem loads_find?_or {make : Loading (Option ClassId)}
    (hmake : loader.table.find? name = none → make loader = (r, loader') →
      Loads finder name loader r loader')
    (h : (do match ← find? name with | some id => return some id | none => make) loader =
      (r, loader')) : Loads finder name loader r loader' := by
  rw [bind_of_ok (find?_apply name loader)] at h
  cases hfind : loader.table.find? name with
  | some id =>
    rw [hfind] at h
    obtain ⟨rfl, rfl⟩ := Prod.mk.inj h
    exact .made (.present hfind)
  | none =>
    rw [hfind] at h
    exact hmake hfind h

/-- A step that makes a class from an element, once that has been loaded, or misses with it. -/
theorem loads_of_element {element : String} {plan : LoadPlan} {kind : ClassId → ClassKind}
    {load : Loading (Option ClassId)} (hplan : LoadPlan.resolve element = .ok plan)
    (hsought : loader.table.sought? name = loader.table.sought? element)
    (hload : ∀ {r middle}, load loader = (r, middle) → Loads finder element loader r middle)
    (hmakes : ∀ {id middle}, Makes finder element loader id middle →
      middle.table.find? name = none ∧
      Makes finder name loader middle.next (middle.add name (kind id)))
    (h : (do
      let some id ← load | return none
      return some (← define name (kind id))) loader = (r, loader')) :
    Loads finder name loader r loader' := by
  -- an array misses exactly as its element does, and is defined where its element is made
  rcases bind_cases h with ⟨found, middle, hrun, h⟩ | ⟨e, rfl, hrun⟩
  · cases hload hrun with
    | made helement =>
      obtain ⟨hfree, hmade⟩ := hmakes helement
      dsimp only at h
      rw [bind_of_ok (define_of_free hfree)] at h
      obtain ⟨rfl, rfl⟩ := Prod.mk.inj h
      exact .made hmade
    | missed hasked hmisses =>
      cases hmisses with
      | missing hread =>
        obtain ⟨rfl, rfl⟩ := Prod.mk.inj h
        exact .missed (hsought.trans hasked) (.missing hread)
  · cases hload hrun with
    | missed hasked hmisses => exact .missed (hsought.trans hasked) hmisses
    | malformed hplan' =>
      rw [hplan] at hplan'
      cases hplan'

theorem loads_loadInstances (hplain : LoadPlan.resolve name = .ok (.instanceClass name))
    (hfree : loader.table.find? name = none)
    (h : loadInstances finder name loader = (r, loader')) :
    Loads finder name loader r loader' := by
  have hsought := ClassTable.sought?_instanceClass hplain hfree
  unfold loadInstances at h
  rw [bind_of_ok (search_apply finder name loader)] at h
  cases hfound : finder name with
  | none =>
    have hread : finder.read name = .ok none := by rw [Finder.read, hfound]
    rw [hfound] at h
    obtain ⟨rfl, rfl⟩ := Prod.mk.inj h
    exact .missed hsought (.missing hread)
  | some found =>
    rw [hfound] at h
    dsimp only at h
    cases hparse : ClassFile.parse found.bytes with
    | error fault =>
      have hread : finder.read name =
          .error (.classFormat name (.unreadable found.source.text fault)) := by
        rw [Finder.read, hfound]
        dsimp only
        rw [hparse]
      rw [bind_of_error (parse_of_error hparse _)] at h
      obtain ⟨rfl, rfl⟩ := Prod.mk.inj h
      exact .missed hsought (.refused hread)
    | ok file =>
      have hread : finder.read name =
          if file.thisClass ≠ name then .error (.classFormat name (.wrongName file.thisClass))
          else .ok (some (file, found.source)) := by
        rw [Finder.read, hfound]
        dsimp only
        rw [hparse]
      rw [bind_of_ok (parse_of_ok hparse _)] at h
      -- the name is checked after the search and before the definition
      by_cases hname : file.thisClass ≠ name
      · rw [if_pos hname] at h hread
        obtain ⟨rfl, rfl⟩ := Prod.mk.inj h
        exact .missed hsought (.refused hread)
      · rw [if_neg hname] at h hread
        have hasked : (loader.ask name).table.find? name = none := hfree
        rw [bind_of_ok (define_of_free hasked)] at h
        obtain ⟨rfl, rfl⟩ := Prod.mk.inj h
        exact .made (.located hplain hfree hread)

theorem loads_loadComponent (hplain : LoadPlan.resolve name = .ok (.instanceClass name))
    (h : loadComponent finder name loader = (r, loader')) : Loads finder name loader r loader' :=
  loads_find?_or (fun hfree h => loads_loadInstances hplain hfree h) h

/-- The levels of an array of objects, by induction on the number of brackets. -/
theorem loads_loadObjectArray {component : String} {outer : Nat}
    (hcomponent : IsComponentName component) (houter : outer < LoadPlan.maxDimensions)
    (h : loadObjectArray finder (.build (componentDescriptor component) component outer) loader =
      (r, loader')) :
    Loads finder (arrayDescriptor (componentDescriptor component) outer) loader r loader' := by
  induction outer generalizing r loader' with
  | zero =>
    refine loads_find?_or (fun hfree h => ?_) h
    refine loads_of_element hcomponent.resolve (ClassTable.sought?_objectArray hcomponent hfree)
      (fun h => loads_loadComponent hcomponent.resolve h) (fun hmade => ?_) h
    -- making the component leaves the array's longer name free
    have hmiddle := hmade.find?_of_length_lt hfree (by simp [arrayDescriptor]; omega)
    exact ⟨hmiddle, .objectArray hcomponent hmiddle hmade⟩
  | succ outer ih =>
    rw [ArrayPlan.build, loadObjectArray, ArrayPlan.descriptor_build, ArrayPlan.dimension_build]
      at h
    refine loads_find?_or (fun hfree h => ?_) h
    have houter' := Nat.lt_of_succ_lt houter
    refine loads_of_element (resolve_objectArray hcomponent houter')
      (ClassTable.sought?_objectArrays hcomponent houter hfree) (ih houter') (fun hmade => ?_) h
    have hmiddle := hmade.find?_of_length_lt hfree (by simp [arrayDescriptor])
    exact ⟨hmiddle, .objectArrays hcomponent houter hmiddle hmade⟩

/-- The levels of an array of primitives. No file is read. -/
theorem makes_loadPrimitiveArray (finder : Finder) {type : BaseType} (hvoid : type ≠ .void)
    {outer : Nat} (houter : outer < LoadPlan.maxDimensions) (loader : Loader) :
    ∃ id loader', loadPrimitiveArray (.build type.text type outer) loader = (.ok id, loader') ∧
      Makes finder (arrayDescriptor type.text outer) loader id loader' := by
  -- no class is asked for, so no level can fail
  induction outer with
  | zero =>
    rw [ArrayPlan.build, loadPrimitiveArray, bind_of_ok (find?_apply _ loader)]
    cases hfind : loader.table.find? ("[" ++ type.text) with
    | some id => exact ⟨id, loader, rfl, .present hfind⟩
    | none => exact ⟨_, _, define_of_free hfind, .primitiveArray hvoid hfind⟩
  | succ outer ih =>
    rw [ArrayPlan.build, loadPrimitiveArray, ArrayPlan.descriptor_build, ArrayPlan.dimension_build,
      bind_of_ok (find?_apply _ loader)]
    cases hfind : loader.table.find? ("[" ++ arrayDescriptor type.text outer) with
    | some id => exact ⟨id, loader, rfl, .present hfind⟩
    | none =>
      obtain ⟨down, middle, hrun, hmade⟩ := ih (by omega)
      have hmiddle := hmade.find?_of_length_lt hfind (by simp)
      refine ⟨_, _, ?_, .primitiveArrays hvoid houter hmiddle hmade⟩
      dsimp only
      rw [bind_of_ok hrun]
      exact define_of_free hmiddle

/-- **Loading by name** is a derivation of a class, or misses the one file that it needs. -/
theorem loads_load (h : load finder name loader = (r, loader')) :
    Loads finder name loader r loader' := by
  refine loads_find?_or (fun hfree hmake => ?_) h
  cases hresolve : LoadPlan.resolve name with
  | error error =>
    rw [hresolve] at hmake
    obtain ⟨rfl, rfl⟩ := Prod.mk.inj hmake
    exact .malformed hresolve
  | ok plan =>
    rw [hresolve] at hmake
    dsimp only at hmake
    -- the plan says which of the three ways the name is made
    cases resolves_of_resolve hresolve with
    | instanceClass _ _ => exact loads_loadInstances hresolve hfree hmake
    | objectArray hcomponent houter hname =>
      subst hname
      exact loads_loadObjectArray hcomponent houter hmake
    | primitiveArray hvoid houter hname =>
      subst hname
      obtain ⟨id, last, hrun, hmade⟩ := makes_loadPrimitiveArray finder hvoid houter loader
      rw [loadPlan, bind_of_ok hrun] at hmake
      obtain ⟨rfl, rfl⟩ := Prod.mk.inj hmake
      exact .made hmade

end Loader

end ClassHost
