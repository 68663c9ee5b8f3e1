import Mathlib.Data.List.Nodup
import ClassHost.Proofs.Loader.Provenance
import ClassHost.Proofs.Loader.TableInvariant

/-!
# What a loader remembers

A loader remembers the classes it has and nothing else. A name that has led to a class leads to that
class for good, without another search and without room for another class of that name (`Cached`). A
name that has led to no class is as unknown as it was: the class path is asked again, and its answer
of then decides (`LookedUpAfresh`).

Both rest on the table only growing at its end, with classes whose names are new. `caching` is all
that holds of a loader in use, whatever it has been asked for and whatever the class path had at the
time.
-/

namespace ClassHost

/-- Names in the table are pairwise distinct. -/
theorem ClassTable.WellFormed.nodup_names {table : ClassTable} (h : table.WellFormed) :
    (table.classes.toList.map LoadedClass.name).Nodup := by
  rw [List.nodup_iff_getElem?_ne_getElem?]
  intro i j hlt hj heq
  have hj' : j < table.classes.size := by simpa using hj
  have hi' : i < table.classes.size := Nat.lt_trans hlt hj'
  have hname : table.classes[i].name = table.classes[j].name := by simpa [hi', hj'] using heq
  have hplace : (⟨i⟩ : ClassId) = ⟨j⟩ :=
    h.eq_of_name_eq (Array.getElem?_eq_getElem hi') (Array.getElem?_eq_getElem hj') hname
  exact absurd (congrArg ClassId.index hplace) (Nat.ne_of_lt hlt)

namespace Loader

variable {finder : Finder} {name : String} {id : ClassId} {c : LoadedClass} {loader : Loader}

-- ---------------------------------------------------------------------------
-- Names that lead to classes
-- ---------------------------------------------------------------------------

/-- A class stands in the table, and its name is spent. -/
structure Cached (loader : Loader) (id : ClassId) (c : LoadedClass) : Prop where
  stands : loader.table.get? id = some c
  /-- A load of the name returns the class and does nothing: the class path is not searched. -/
  loaded : ∀ finder, load finder c.name loader = (.ok (some id), loader)
  /-- Bytes of a class of the name are refused. -/
  refused : ∀ bytes file, ClassFile.parse bytes = .ok file → file.thisClass = c.name →
    loadBytes bytes loader = (.error (.internal (.duplicateClass c.name)), loader)

theorem cached_of_get? (hwell : loader.table.WellFormed) (hget : loader.table.get? id = some c) :
    Cached loader id c where
  stands := hget
  loaded := load_of_find?_some (hwell.found id c hget)
  refused bytes file hparse hname := by
    have hfind : loader.table.find? file.thisClass = some id := by
      rw [hname]
      exact hwell.found id c hget
    rw [← hname]
    exact loadBytes_of_find?_some hparse hfind

/-- What a call returns: a class by its place, nothing, or a failure. -/
def Call.result : Call → Loader → Except Throwable (Option ClassId)
  | load finder name, loader => (Loader.load finder name loader).1
  | loadBytes bytes, loader => (Loader.loadBytes bytes loader).1.map some

/-- The class that a call returns is in the table, and a load returns a class of the name that was
asked for. -/
theorem exists_get?_of_result {call : Call} (h : call.result loader = .ok (some id)) :
    ∃ c, (call.apply loader).table.get? id = some c ∧
      ∀ finder name, call = .load finder name → c.name = name := by
  cases call with
  | load finder name =>
    have hsearched := spec_load finder name loader _ _ rfl
    obtain ⟨c, hget, hname⟩ := ClassTable.get?_of_find? (hsearched.found id h)
    refine ⟨c, hget, fun _ _ hcall => ?_⟩
    cases hcall
    exact hname
  | loadBytes bytes =>
    rw [Call.result] at h
    rw [Call.apply]
    cases hrun : Loader.loadBytes bytes loader with
    | mk r loader' =>
      rw [hrun] at h
      -- bytes that load are appended, so the class is the last one
      rcases loadBytes_cases hrun with ⟨_, rfl, -⟩ | ⟨file, -, -, rfl, rfl⟩
      · cases h
      · cases h
        refine ⟨_, (ClassTable.get?_push _ _ _).trans (if_pos rfl), fun _ _ hcall => ?_⟩
        cases hcall

-- ---------------------------------------------------------------------------
-- Names that lead nowhere
-- ---------------------------------------------------------------------------

/-- As long as the table is this one, a load of the name asks the class path, and what is there at
the time decides what the load comes to. A name that cannot be planned fails each time. -/
structure LookedUpAfresh (name : String) (table : ClassTable) : Prop where
  asked : ∀ sought, Command.classFor? name = some sought →
    ∀ (finder : Finder) (loader : Loader), loader.table = table →
      (load finder name loader).2.searched = loader.searched.push sought ∧
        (load finder name loader).1.map Option.isSome = (finder.read sought).map Option.isSome
  malformed : ∀ error, LoadPlan.resolve name = .error error →
    ∀ (finder : Finder) (loader : Loader), loader.table = table →
      load finder name loader = (.error (.descriptor error), loader)

theorem lookedUpAfresh_of_miss (h : ∀ id, (load finder name loader).1 ≠ .ok (some id)) :
    LookedUpAfresh name loader.table where
  asked sought hsought finder' loader' htable := by
    refine load_of_sought? finder' ?_
    rw [htable, sought?_of_miss h, hsought]
  malformed error herror finder' loader' htable := by
    refine load_of_malformed ?_ herror finder'
    rw [htable]
    exact find?_of_miss h

-- ---------------------------------------------------------------------------
-- Loaders in use
-- ---------------------------------------------------------------------------

/-- A class that a call has returned is remembered from then on. -/
theorem cached_of_result (calls : List Call) {call : Call}
    (h : call.result (after calls) = .ok (some id)) :
    ∃ c, (∀ finder name, call = .load finder name → c.name = name) ∧
      ∀ later, Cached (after (calls ++ call :: later)) id c := by
  obtain ⟨c, hget, hname⟩ := exists_get?_of_result h
  refine ⟨c, hname, fun later => cached_of_get? (wellFormed_after _) ?_⟩
  rw [← after_concat] at hget
  have hbuilt := built_after_append (calls ++ [call]) later
  rw [List.append_assoc] at hbuilt
  exact hbuilt.get?_of_some hget

/-- **The table of a loader in use.** After any calls, over class paths that may differ from call to
call:

* names are pairwise distinct, a name leads to the place of the class that bears it and to no other,
  the element of an array class was there before it, so that going inside comes to an end, and a
  class that is no array bears the name that its file gives (`ClassTable.WellFormed`);
* every class was brought in by one of the calls; a class that is no array has a source if that call
  was a load, namely where the class path of the call had its file, and none if the class was handed
  in (`Introduced`);
* later calls add classes at the end;
* a class that a call returns is remembered from then on (`Cached`);
* a load that comes to no class leaves only its search behind, and so the name is looked up afresh
  (`LookedUpAfresh`). -/
theorem caching (calls : List Call) :
    (after calls).table.WellFormed ∧
    ((after calls).table.classes.toList.map LoadedClass.name).Nodup ∧
    (∀ name id, (after calls).table.find? name = some id ↔
      ∃ c, (after calls).table.get? id = some c ∧ c.name = name) ∧
    (∀ id, (after calls).table.inside (id.index + 1) id = none) ∧
    (∀ id c, (after calls).table.get? id = some c → Introduced calls id c) ∧
    (∀ later, (after calls).table.classes.toList <+:
      (after (calls ++ later)).table.classes.toList) ∧
    (∀ call id, call.result (after calls) = .ok (some id) →
      ∃ c, (∀ finder name, call = .load finder name → c.name = name) ∧
        ∀ later, Cached (after (calls ++ call :: later)) id c) ∧
    (∀ finder name, (∀ id, (load finder name (after calls)).1 ≠ .ok (some id)) →
      (load finder name (after calls)).2 = { after calls with
        searched := (after calls).searched ++ (Command.classFor? name).toArray } ∧
      LookedUpAfresh name (after calls).table) := by
  have hwell := wellFormed_after calls
  refine ⟨hwell, hwell.nodup_names, fun _ _ => hwell.find?_iff,
    fun id => hwell.inside_eq_none (Nat.lt_succ_self _), fun _ _ => introduced_after calls,
    fun later => (built_after_append calls later).isPrefix,
    fun _ _ => cached_of_result calls, fun finder name hmiss => ?_⟩
  exact ⟨apply_of_miss hmiss, lookedUpAfresh_of_miss hmiss⟩

/-- A class path with nothing but a class `A` without members. -/
def letterPath : Finder := fun name =>
  if name = "A" then
    some ⟨.memory name, [0xCA, 0xFE, 0xBA, 0xBE, 0, 0, 0, 52, 0, 3, 7, 0, 2, 1, 0, 1, 65,
      0, 0, 0, 1, 0, 0, 0, 0, 0, 0, 0, 0, 0, 0]⟩
  else none

/-- A class path with nothing at all. -/
def emptyPath : Finder := fun _ => none

/-- The array of arrays of `A` is asked for before `A` is on the class path and after. The first
load comes to nothing and is not remembered; the second returns the third class of the table, after
`A` and its array, and is. -/
theorem letterPath_caching :
    ((load emptyPath "[[LA;" (after [])).1 = .ok none ∧
      LookedUpAfresh "[[LA;" (after []).table) ∧
    (Call.load letterPath "[[LA;").result (after [.load emptyPath "[[LA;"]) = .ok (some ⟨2⟩) ∧
    ∃ c, c.name = "[[LA;" ∧ ∀ later,
      Cached (after (.load emptyPath "[[LA;" :: .load letterPath "[[LA;" :: later)) ⟨2⟩ c := by
  have hmissed : (load emptyPath "[[LA;" (after [])).1 = .ok none := by with_unfolding_all rfl
  have hmade : (Call.load letterPath "[[LA;").result (after [.load emptyPath "[[LA;"]) =
      .ok (some ⟨2⟩) := by
    decide +kernel
  have hnone : ∀ id, (load emptyPath "[[LA;" (after [])).1 ≠ .ok (some id) := by
    intro id hid
    rw [hmissed] at hid
    cases hid
  obtain ⟨-, -, -, -, -, -, -, hmiss⟩ := caching []
  obtain ⟨-, -, -, -, -, -, hcached, -⟩ := caching [.load emptyPath "[[LA;"]
  obtain ⟨c, hname, hlater⟩ := hcached _ _ hmade
  exact ⟨⟨hmissed, (hmiss emptyPath _ hnone).2⟩, hmade, c, hname _ _ rfl, hlater⟩

end Loader

end ClassHost
