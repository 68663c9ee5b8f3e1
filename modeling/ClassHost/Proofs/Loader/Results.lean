import ClassHost.Proofs.Loader.Derivation

/-!
# What calls on a loader come to

Whatever a call returns, it has added classes to the table and done nothing else to it (`Grows`), a
class that a load returns stands in the table under the name that was asked for, and a load that
returns none has left the table alone (`spec_load`). Bytes are defined under their own name or
refused (`loadBytes_cases`).

A load whose name leads to a class returns that class and does nothing (`load_of_find?_some`). If
the class path is asked, its answer decides (`load_of_sought?`): there is a class in the end exactly
if the file could be read, and the failure to read it is the failure of the load.
-/

namespace ClassHost.Loader

open Effect

variable {finder : Finder} {name sought : String} {id : ClassId} {loader loader' : Loader}

/-- What a call does to a loader: it adds classes. -/
structure Grows (loader loader' : Loader) : Prop where
  built : Built loader.table loader'.table
  delegate : loader'.delegate = loader.delegate

theorem Grows.refl (loader : Loader) : Grows loader loader := ⟨.refl, rfl⟩

theorem Grows.trans {first second third : Loader} (h : Grows first second)
    (h' : Grows second third) : Grows first third :=
  ⟨h.built.trans h'.built, h'.delegate.trans h.delegate⟩

-- ---------------------------------------------------------------------------
-- Loading by name
-- ---------------------------------------------------------------------------

/-- What has become of a load by name. -/
structure Searched (name : String) (loader : Loader) (r : Except Throwable (Option ClassId))
    (loader' : Loader) : Prop where
  grows : Grows loader loader'
  found : ∀ id, r = .ok (some id) → loader'.table.find? name = some id
  /-- A load that finds no class, or fails, has not left anything behind. -/
  missed : (∀ id, r ≠ .ok (some id)) → loader'.table = loader.table

theorem Makes.delegate (h : Makes finder name loader id loader') :
    loader'.delegate = loader.delegate := by
  induction h with
  | present _ => rfl
  | located _ _ _ => rfl
  | objectArray _ _ _ ih => exact ih
  | objectArrays _ _ _ _ ih => exact ih
  | primitiveArray _ _ => rfl
  | primitiveArrays _ _ _ _ ih => exact ih

/-- **Loading by name** adds classes and does nothing else to the table, whatever it returns; a
class that it returns is the one of that name. -/
theorem spec_load (finder : Finder) (name : String) (loader : Loader)
    (r : Except Throwable (Option ClassId)) (loader' : Loader)
    (h : load finder name loader = (r, loader')) : Searched name loader r loader' := by
  cases loads_load h with
  | made hmade =>
    refine ⟨⟨hmade.built, hmade.delegate⟩, fun id hid => ?_, fun hmiss => absurd rfl (hmiss _)⟩
    cases hid
    exact hmade.find?
  | missed _ hmisses =>
    refine ⟨⟨.refl, rfl⟩, fun id hid => ?_, fun _ => rfl⟩
    cases hmisses with
    | missing _ => cases hid
    | refused _ => cases hid
  | malformed _ =>
    refine ⟨.refl loader, fun id hid => ?_, fun _ => rfl⟩
    cases hid

theorem load_of_find?_some (h : loader.table.find? name = some id) (finder : Finder) :
    load finder name loader = (.ok (some id), loader) := by
  unfold load
  rw [bind_of_ok (find?_apply name loader), h]
  rfl

theorem find?_of_miss (h : ∀ id, (load finder name loader).1 ≠ .ok (some id)) :
    loader.table.find? name = none := by
  cases hfind : loader.table.find? name with
  | none => rfl
  | some id => exact absurd (congrArg Prod.fst (load_of_find?_some hfind finder)) (h id)

/-- A class that was asked for and not found is not in the table. -/
theorem find?_of_load_none (h : load finder name loader = (.ok none, loader')) :
    loader'.table.find? name = none := by
  have hmiss : ∀ id, (load finder name loader).1 ≠ .ok (some id) := by simp [h]
  rw [(spec_load finder name loader _ loader' h).missed (by simp)]
  exact find?_of_miss hmiss

theorem load_of_malformed {error : DescriptorError} (hfree : loader.table.find? name = none)
    (h : LoadPlan.resolve name = .error error) (finder : Finder) :
    load finder name loader = (.error (.descriptor error), loader) := by
  unfold load
  rw [bind_of_ok (find?_apply name loader), hfree]
  dsimp only
  rw [h]
  rfl

-- ---------------------------------------------------------------------------
-- Answers of the class path
-- ---------------------------------------------------------------------------

/-- On the way to a class the class path was asked for nothing, or for a file that could be read. -/
theorem Makes.answered (h : Makes finder name loader id loader') :
    loader.table.sought? name = none ∨
      ∃ sought found, loader.table.sought? name = some sought ∧
        finder.read sought = .ok (some found) ∧ loader'.searched = loader.searched.push sought := by
  induction h with
  | present hfind => exact .inl (ClassTable.sought?_of_find?_some hfind)
  | located hplain hfree hread =>
    exact .inr ⟨_, _, ClassTable.sought?_instanceClass hplain hfree, hread, rfl⟩
  | objectArray hcomponent hfree h ih =>
    rw [ClassTable.sought?_objectArray hcomponent (h.built.find?_eq_none hfree)]
    exact ih
  | objectArrays hcomponent houter hfree h ih =>
    rw [ClassTable.sought?_objectArrays hcomponent houter (h.built.find?_eq_none hfree)]
    exact ih
  | primitiveArray hvoid _ => exact .inl (ClassTable.sought?_primitiveArray hvoid (by decide))
  | primitiveArrays hvoid houter _ _ _ =>
    exact .inl (ClassTable.sought?_primitiveArray hvoid houter)

/-- **Answers.** If the class path is asked, the load comes to what it answers. -/
theorem load_of_sought? (finder : Finder) (h : loader.table.sought? name = some sought) :
    (load finder name loader).2.searched = loader.searched.push sought ∧
      (load finder name loader).1.map Option.isSome =
        (finder.read sought).map Option.isSome := by
  cases hrun : load finder name loader with
  | mk r loader' =>
    -- one class is asked for, so the load was made from it or missed it
    cases loads_load hrun with
    | made hmade =>
      rcases hmade.answered with hnone | ⟨_, found, hsought, hread, hpush⟩
      · rw [h] at hnone
        cases hnone
      · obtain rfl := Option.some.inj (h.symm.trans hsought)
        rw [hread]
        exact ⟨hpush, rfl⟩
    | missed hsought hmisses =>
      obtain rfl := Option.some.inj (h.symm.trans hsought)
      cases hmisses with
      | missing hread =>
        rw [hread]
        exact ⟨rfl, rfl⟩
      | refused hread =>
        rw [hread]
        exact ⟨rfl, rfl⟩
    | malformed hplan =>
      rw [ClassTable.sought?_of_malformed hplan] at h
      cases h

/-- A load that comes to no class has asked for the class that has to be found for the name. -/
theorem sought?_of_miss (h : ∀ id, (load finder name loader).1 ≠ .ok (some id)) :
    loader.table.sought? name = Command.classFor? name := by
  cases hrun : load finder name loader with
  | mk r loader' =>
    rw [hrun] at h
    cases loads_load hrun with
    | made _ => exact absurd rfl (h _)
    | missed hsought _ => rw [hsought, ClassTable.classFor?_of_sought? hsought]
    | malformed hplan => rw [ClassTable.sought?_of_malformed hplan, Command.classFor?, hplan]

/-- A load that comes to no class changes nothing but the record of searches. -/
theorem apply_of_miss (h : ∀ id, (load finder name loader).1 ≠ .ok (some id)) :
    (load finder name loader).2 =
      { loader with searched := loader.searched ++ (Command.classFor? name).toArray } := by
  cases hrun : load finder name loader with
  | mk r loader' =>
    rw [hrun] at h
    cases loads_load hrun with
    | made _ => exact absurd rfl (h _)
    | missed hsought _ =>
      rw [ClassTable.classFor?_of_sought? hsought]
      rfl
    | malformed hplan => simp [Command.classFor?, hplan]

/-- The classes of before are there after a load. -/
theorem get?_of_load {r : Except Throwable (Option ClassId)} {c : LoadedClass}
    (hload : load finder name loader = (r, loader')) (hget : loader.table.get? id = some c) :
    loader'.table.get? id = some c :=
  (spec_load finder name loader _ _ hload).grows.built.get?_of_some hget

-- ---------------------------------------------------------------------------
-- Defining from bytes
-- ---------------------------------------------------------------------------

/-- **Defining from bytes** adds the class that the bytes describe under its own name, which was
free, or fails and does nothing. -/
theorem loadBytes_cases {bytes : Bytes} {r : Except Throwable ClassId}
    (h : loadBytes bytes loader = (r, loader')) :
    (∃ e, r = .error e ∧ loader' = loader) ∨
    ∃ file, ClassFile.parse bytes = .ok file ∧ loader.table.find? file.thisClass = none ∧
      r = .ok ⟨loader.table.classes.size⟩ ∧
      loader' = { loader with
        table := loader.table.push (.ofKind file.thisClass (.instances file none)) } := by
  unfold loadBytes at h
  cases hparse : ClassFile.parse bytes with
  | error fault =>
    rw [bind_of_error (parse_of_error hparse loader)] at h
    obtain ⟨rfl, rfl⟩ := Prod.mk.inj h
    exact .inl ⟨_, rfl, rfl⟩
  | ok file =>
    rw [bind_of_ok (parse_of_ok hparse loader), bind_of_ok (find?_apply _ loader)] at h
    cases hfind : loader.table.find? file.thisClass with
    | some id =>
      rw [hfind, if_pos Option.isSome_some] at h
      obtain ⟨rfl, rfl⟩ := Prod.mk.inj h
      exact .inl ⟨_, rfl, rfl⟩
    | none =>
      rw [hfind, if_neg (by simp)] at h
      change define file.thisClass (.instances file none) loader = (r, loader') at h
      rw [define_of_free hfind] at h
      obtain ⟨rfl, rfl⟩ := Prod.mk.inj h
      exact .inr ⟨file, rfl, hfind, rfl, rfl⟩

theorem grows_loadBytes {bytes : Bytes} {r : Except Throwable ClassId}
    (h : loadBytes bytes loader = (r, loader')) : Grows loader loader' := by
  rcases loadBytes_cases h with ⟨_, -, rfl⟩ | ⟨file, -, hfree, -, rfl⟩
  · exact .refl loader'
  · exact ⟨.add .refl hfree (.handedIn rfl), rfl⟩

/-- Bytes of a class whose name is taken are refused. -/
theorem loadBytes_of_find?_some {bytes : Bytes} {file : ClassFile}
    (hparse : ClassFile.parse bytes = .ok file)
    (h : loader.table.find? file.thisClass = some id) :
    loadBytes bytes loader = (.error (.internal (.duplicateClass file.thisClass)), loader) := by
  unfold loadBytes
  rw [bind_of_ok (parse_of_ok hparse loader), bind_of_ok (find?_apply _ loader), h]
  rfl

end ClassHost.Loader
