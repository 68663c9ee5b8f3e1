import Mathlib.Data.Finset.Card
import Mathlib.Logic.Relation
import ClassHost.Proofs.Loader.Independence

/-!
# Super classes on a class path

What a class path says about super classes and methods, before anything is loaded from it:
`Finder.loaded?` is the class that a fresh loader makes of a name. Since loads do not depend on each
other, any table that was loaded from the class path says the same (`Settled.exists_loaded?`).

Class files may name each other as super classes in a circle, and a class path that makes up its
answers may go on without end. `Finder.SupersLoad` is a derivation, so it says that following super
classes comes to an end: at a class without one, at an array class, or at a name that has been met.
Names of finitely many classes are enough for that (`Finder.supersLoad_of_reachable`).
-/

namespace ClassHost

variable {finder : Finder} {table : ClassTable} {loader : Loader} {name superName : String}
  {id : ClassId} {c d : LoadedClass} {seen : List String}

namespace Finder

/-- The class that a fresh loader makes of a name. -/
def loaded? (finder : Finder) (name : String) : Option LoadedClass :=
  match Loader.load finder name .empty with
  | (.ok (some id), loader) => loader.table.get? id
  | _ => none

/-- The class of a name, which is no array class, names this super class. -/
def Super (finder : Finder) (name superName : String) : Prop :=
  ∃ c, finder.loaded? name = some c ∧ c.isArray = false ∧ c.superName? = some superName

/-- From a name on, with these met before, one super class after the other can be loaded, up to a
class that has none, an array class or a name that has been met. -/
inductive SupersLoad (finder : Finder) : List String → String → Prop where
  | met {seen : List String} {name : String} (h : name ∈ seen) : SupersLoad finder seen name
  | root {seen : List String} {name : String} {c : LoadedClass} (h : finder.loaded? name = some c)
      (hroot : c.superName? = none) : SupersLoad finder seen name
  | array {seen : List String} {name : String} {c : LoadedClass} (h : finder.loaded? name = some c)
      (harray : c.isArray = true) : SupersLoad finder seen name
  | super {seen : List String} {name superName : String} (hsuper : finder.Super name superName)
      (h : SupersLoad finder (name :: seen) superName) : SupersLoad finder seen name

/-- The first method that the class of a name declares with a key is of the kind asked for. -/
def Declares (finder : Finder) (kind : MethodKind) (name : String) (key : MethodKey) : Prop :=
  ∃ c flags, finder.loaded? name = some c ∧ c.methodFlags? key = some flags ∧
    kind.accepts flags = true

end Finder

-- ---------------------------------------------------------------------------
-- What depends on the class file
-- ---------------------------------------------------------------------------

/-- The class file of a class that is no array class. -/
def ClassForm.file? : ClassForm → Option ClassFile
  | instances file _ => some file
  | objectArray _ _ | primitiveArray _ _ => none

theorem ClassTable.file?_formOf (table : ClassTable) (c : LoadedClass) :
    (table.formOf c.kind).file? = c.file? := by
  rw [LoadedClass.file?]
  cases c.kind with
  | instances file source => rfl
  | objectArray shape =>
    obtain ⟨_, _ | _⟩ := shape
    · rfl
    · rfl
  | primitiveArray shape =>
    obtain ⟨_, _ | _⟩ := shape
    · rfl
    · rfl

namespace LoadedClass

theorem isArray_of_file?_eq (h : c.file? = d.file?) : c.isArray = d.isArray := by
  have hfile : ∀ c : LoadedClass, c.isArray = c.file?.isNone := by
    intro c
    rw [isArray, file?]
    cases c.kind <;> rfl
  rw [hfile, hfile, h]

theorem superName?_of_file?_eq (h : c.file? = d.file?) : c.superName? = d.superName? := by
  have hfile : ∀ c : LoadedClass,
      c.superName? = c.file?.elim (some rootName) ClassFile.superClass := by
    intro c
    rw [superName?, file?]
    cases c.kind <;> rfl
  rw [hfile, hfile, h]

theorem methodFlags?_of_file?_eq (h : c.file? = d.file?) (key : MethodKey) :
    c.methodFlags? key = d.methodFlags? key := by
  rw [methodFlags?, methodFlags?, h]

end LoadedClass

-- ---------------------------------------------------------------------------
-- Tables that were loaded from the class path
-- ---------------------------------------------------------------------------

/-- A name can be loaded if it stands for something on the class path. -/
theorem Loader.exists_load_iff (hwell : loader.table.WellFormed)
    (hsettled : Settled finder loader.table) (name : String) :
    (∃ id, (load finder name loader).1 = .ok (some id)) ↔
      ∃ description, finder.resolution name = .ok (some description) := by
  rw [← (outcome_eq_resolution hwell hsettled name).1, outcome]
  rcases (load finder name loader).1 with error | _ | id
  · simp [Except.map]
  · simp [Except.map]
  · simp [Except.map]

theorem Finder.exists_loaded?_iff :
    (∃ c, finder.loaded? name = some c) ↔
      ∃ description, finder.resolution name = .ok (some description) := by
  have hwell : Loader.empty.table.WellFormed := ClassTable.wellFormed_empty
  rw [← Loader.exists_load_iff hwell (settled_empty finder), loaded?]
  rcases hrun : Loader.load finder name .empty with ⟨error | _ | id, loader⟩
  · simp
  · simp
  · obtain ⟨c, hget, -⟩ := ClassTable.get?_of_find?
      ((Loader.spec_load finder name .empty _ loader hrun).found id rfl)
    exact ⟨fun _ => ⟨id, rfl⟩, fun _ => ⟨c, hget⟩⟩

/-- What a fresh loader makes of a name is what the name stands for. -/
theorem Finder.resolution_of_loaded? (h : finder.loaded? name = some c) :
    ∃ form, finder.resolution name = .ok (some ⟨name, some form⟩) ∧ form.file? = c.file? := by
  have hwell : Loader.empty.table.WellFormed := ClassTable.wellFormed_empty
  have hsettled := (Loader.outcome_eq_resolution hwell (settled_empty finder) name).2
  rw [loaded?] at h
  rcases hrun : Loader.load finder name .empty with ⟨error | _ | id, loader⟩
  · simp [hrun] at h
  · simp [hrun] at h
  · rw [hrun] at h hsettled
    have hfind := (Loader.spec_load finder name .empty _ loader hrun).found id rfl
    obtain ⟨c', hget, hname⟩ := ClassTable.get?_of_find? hfind
    obtain rfl := Option.some.inj (hget.symm.trans h)
    refine ⟨loader.table.formOf c'.kind, ?_, ClassTable.file?_formOf _ _⟩
    rw [hsettled.of_find? hfind, ClassTable.describe_of_get? hget, hname]

/-- **A settled table agrees with the class path**: a class in it has the same file as the one that
a fresh loader makes of its name. -/
theorem Settled.exists_loaded? (h : Settled finder table) (hfind : table.find? name = some id)
    (hget : table.get? id = some c) :
    ∃ d, finder.loaded? name = some d ∧ d.file? = c.file? := by
  have hresolution := h.of_find? hfind
  obtain ⟨d, hd⟩ := Finder.exists_loaded?_iff.mpr ⟨_, hresolution⟩
  obtain ⟨form, hform, hfile⟩ := Finder.resolution_of_loaded? hd
  refine ⟨d, hd, ?_⟩
  rw [hresolution, ClassTable.describe_of_get? hget] at hform
  injection hform with hform
  injection hform with hform
  injection hform with _ hform
  rw [← hfile, ← Option.some.inj hform, ClassTable.file?_formOf]

theorem Settled.file?_eq (h : Settled finder table) (hfind : table.find? name = some id)
    (hget : table.get? id = some c) (hloaded : finder.loaded? name = some d) :
    c.file? = d.file? := by
  obtain ⟨d', hd', hfile⟩ := h.exists_loaded? hfind hget
  obtain rfl := Option.some.inj (hd'.symm.trans hloaded)
  exact hfile.symm

/-- A method is declared in the table if it is declared on the class path. -/
theorem Settled.declares_iff (h : Settled finder table) (hfind : table.find? name = some id)
    (kind : MethodKind) (key : MethodKey) :
    finder.Declares kind name key ↔ ∃ method, table.method? kind id key = some method := by
  obtain ⟨c, hget, -⟩ := ClassTable.get?_of_find? hfind
  -- the class in the table and the one the finder gives have one file, and so the same methods
  obtain ⟨d, hd, hfile⟩ := h.exists_loaded? hfind hget
  have hflags := LoadedClass.methodFlags?_of_file?_eq hfile key
  have hmethod : table.method? kind id key = (c.methodFlags? key).bind fun flags =>
      if kind.accepts flags then some ⟨id, key, flags⟩ else none := by
    simp only [ClassTable.method?, hget, Option.bind_eq_bind, Option.bind_some]
  rw [hmethod, ← hflags]
  constructor
  · rintro ⟨d', flags, hd', hd'flags, haccepts⟩
    obtain rfl := Option.some.inj (hd.symm.trans hd')
    exact ⟨⟨id, key, flags⟩, by rw [hd'flags, Option.bind_some, if_pos haccepts]⟩
  · rintro ⟨method, hfound⟩
    obtain ⟨flags, hsome, hif⟩ := Option.bind_eq_some_iff.mp hfound
    refine ⟨d, flags, hd, hsome, ?_⟩
    split at hif
    · assumption
    · cases hif

/-- A name that begins with no bracket stands for no array class. -/
theorem Finder.isArray_of_plain (h : finder.loaded? name = some c)
    (hplain : name.toList.head? ≠ some '[') (hne : name ≠ "") : c.isArray = false := by
  obtain ⟨form, hform, hfile⟩ := resolution_of_loaded? h
  rw [Finder.resolution, resolve_of_resolves (.instanceClass hplain hne)] at hform
  dsimp only at hform
  rcases hread : finder.read name with error | _ | ⟨file, source⟩
  · simp [hread, Except.map] at hform
  · simp [hread, Except.map] at hform
  · simp only [hread, Except.map, Option.map_some, Except.ok.injEq, Option.some.injEq,
      ClassDescription.mk.injEq, true_and] at hform
    subst hform
    have hsome : c.file? = some file := hfile.symm
    rw [LoadedClass.file?] at hsome
    rw [LoadedClass.isArray]
    cases hkind : c.kind with
    | instances _ _ => rfl
    | objectArray _ => simp [hkind] at hsome
    | primitiveArray _ => simp [hkind] at hsome

-- ---------------------------------------------------------------------------
-- Chains
-- ---------------------------------------------------------------------------

namespace Finder

theorem SupersLoad.loads (h : finder.SupersLoad seen name) :
    name ∈ seen ∨ ∃ c, finder.loaded? name = some c := by
  cases h with
  | met hmem => exact .inl hmem
  | root hloaded _ => exact .inr ⟨_, hloaded⟩
  | array hloaded _ => exact .inr ⟨_, hloaded⟩
  | super hsuper _ => exact .inr ⟨_, hsuper.choose_spec.1⟩

/-- If all that can be reached from a name are classes from a finite stock, following super classes
comes to an end. The induction is on how much of the stock has not been met. -/
theorem supersLoad_of_reachable (stock : Finset String)
    (h : ∀ other, Relation.ReflTransGen finder.Super name other →
      other ∈ stock ∧ ∃ c, finder.loaded? other = some c) (seen : List String) :
    finder.SupersLoad seen name := by
  -- every step up takes a name out of the stock of names not met yet
  induction hsize : (stock \ seen.toFinset).card using Nat.strongRecOn generalizing name seen with
  | ind size ih =>
    by_cases hmem : name ∈ seen
    · exact .met hmem
    obtain ⟨hstock, c, hloaded⟩ := h name .refl
    by_cases harray : c.isArray = true
    · exact .array hloaded harray
    cases hsuper : c.superName? with
    | none => exact .root hloaded hsuper
    | some superName =>
      have hnext : finder.Super name superName := ⟨c, hloaded, by simpa using harray, hsuper⟩
      have hunmet : name ∈ stock \ seen.toFinset := by simp [hstock, hmem]
      have hsub : stock \ (name :: seen).toFinset ⊂ stock \ seen.toFinset := by
        rw [Finset.ssubset_iff_of_subset]
        · exact ⟨name, hunmet, by simp⟩
        · exact Finset.sdiff_subset_sdiff (Finset.Subset.refl _) (by simp)
      exact .super hnext (ih _ (hsize ▸ Finset.card_lt_card hsub)
        (fun other hreach => h other (.head hnext hreach)) _ rfl)

end Finder

end ClassHost
