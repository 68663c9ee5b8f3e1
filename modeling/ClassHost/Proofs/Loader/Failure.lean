import ClassHost.Proofs.Loader.History

/-!
# Loads that come to nothing

An array of several dimensions is loaded from the inside out: its component first, then one array
class for each level, each defined as soon as the level inside it is there. What can go wrong along
the way is resolving the name, finding the component, reading its file and comparing the name in it.
All of that happens before the first class is defined, and defining does not fail. So a load that
returns no class has defined none (`Searched.missed`), and `table_eq_of_failure` states it for both
ways into the table.

Nothing is assumed of the table. In particular it may hold some levels of the array already, under
whatever names.
-/

namespace ClassHost.Loader

/-- **Failures leave no classes behind.** Whatever a loader holds and wherever it looks, a load by
name that finds nothing or fails leaves the class table as it was: no class is added, and none of
those there changes its place, name, kind or state. The same goes for bytes that are refused. -/
theorem table_eq_of_failure (loader : Loader) :
    (∀ (finder : Finder) (name : String) r loader', load finder name loader = (r, loader') →
      (r = .ok none ∨ ∃ e, r = .error e) → loader'.table = loader.table) ∧
    (∀ (bytes : Bytes) e loader', loadBytes bytes loader = (.error e, loader') →
      loader'.table = loader.table) := by
  constructor
  · intro finder name r loader' hrun hfailed
    refine (spec_load finder name loader r loader' hrun).missed fun id hid => ?_
    rcases hfailed with rfl | ⟨e, rfl⟩
    · exact nomatch hid
    · exact nomatch hid
  · intro bytes e loader' hrun
    rcases loadBytes_cases hrun with ⟨_, -, rfl⟩ | ⟨_, -, -, hr, -⟩
    · rfl
    · exact nomatch hr

/-- A class path with one class, whose file breaks off. -/
def damagedPath : Finder := fun name =>
  if name = "Broken" then some ⟨.memory name, [0xCA, 0xFE]⟩ else none

/-- A loader that holds `[I` and `[[I`. -/
def arrayLoader : Loader := after [.load damagedPath "[[I"]

/-- Arrays of a class that is missing and of one that is damaged, and bytes that are no class: the
two classes of the loader stay the only ones. -/
theorem arrayLoader_failures :
    (arrayLoader.table.classes.map LoadedClass.name = #["[I", "[[I"] ∧
      (load damagedPath "[[[LMissing;" arrayLoader).1 = .ok none ∧
      (load damagedPath "[[[LBroken;" arrayLoader).1 = .error (.classFormat "Broken"
        (.unreadable "memory:Broken" (.endOfInput ⟨4, 2⟩))) ∧
      (loadBytes [0xCA, 0xFE] arrayLoader).1 = .error (.classFormat streamName
        (.unreadable streamName (.endOfInput ⟨4, 2⟩)))) ∧
    (load damagedPath "[[[LMissing;" arrayLoader).2.table = arrayLoader.table ∧
    (load damagedPath "[[[LBroken;" arrayLoader).2.table = arrayLoader.table ∧
    (loadBytes [0xCA, 0xFE] arrayLoader).2.table = arrayLoader.table := by
  have hmissing : (load damagedPath "[[[LMissing;" arrayLoader).1 = .ok none := by
    with_unfolding_all rfl
  have hbroken : (load damagedPath "[[[LBroken;" arrayLoader).1 = .error (.classFormat "Broken"
      (.unreadable "memory:Broken" (.endOfInput ⟨4, 2⟩))) := by with_unfolding_all rfl
  have hbytes : (loadBytes [0xCA, 0xFE] arrayLoader).1 = .error (.classFormat streamName
      (.unreadable streamName (.endOfInput ⟨4, 2⟩))) := by rfl
  obtain ⟨hload, hloadBytes⟩ := table_eq_of_failure arrayLoader
  refine ⟨⟨by decide +kernel, hmissing, hbroken, hbytes⟩, ?_, ?_, ?_⟩
  · exact hload damagedPath _ _ _ rfl (.inl hmissing)
  · exact hload damagedPath _ _ _ rfl (.inr ⟨_, hbroken⟩)
  · exact hloadBytes _ _ _ (Prod.ext hbytes rfl)

end ClassHost.Loader
