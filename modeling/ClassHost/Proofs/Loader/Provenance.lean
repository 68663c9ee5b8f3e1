import Mathlib.Data.List.Induction
import ClassHost.Proofs.Loader.History

/-!
# Where classes come from

A class that is no array has a class file, and either that file was found on the class path, and the
class remembers where, or it was handed in, and the class remembers nothing. `Call.Supplies` says so
of the call that brought the class in. Every class of a loader in use was brought in by one of the
calls, under the class path of that call (`introduced_after`).
-/

namespace ClassHost

/-- The class file of a class, if it has one, is what a class path has for its name, and the source
says where. -/
def Finder.Supplies (finder : Finder) (c : LoadedClass) : Prop :=
  ∀ file source, c.kind = .instances file source →
    ∃ found, finder c.name = some found ∧ source = some found.source ∧
      ClassFile.parse found.bytes = .ok file

/-- Array classes have no class file that would have to be supplied. -/
theorem Finder.supplies_of_isArray (finder : Finder) {c : LoadedClass} (h : c.isArray = true) :
    finder.Supplies c := by
  intro file source hkind
  simp [LoadedClass.isArray, hkind] at h

namespace Loader

variable {finder : Finder} {name : String} {id place : ClassId} {loader loader' : Loader}
variable {c : LoadedClass}

/-- What a call says about a class that it brings in: a load takes class files from its class path,
and bytes that are handed in have no source. -/
def Call.Supplies : Call → LoadedClass → Prop
  | load finder _, c => finder.Supplies c
  | loadBytes bytes, c =>
    ∃ file, c.kind = .instances file none ∧ ClassFile.parse bytes = .ok file

/-- A class was brought in by one of the calls: it was not there before the call, and it was there
after it. -/
def Introduced (calls : List Call) (place : ClassId) (c : LoadedClass) : Prop :=
  ∃ before call rest, calls = before ++ call :: rest ∧
    (after before).table.get? place = none ∧
    (after (before ++ [call])).table.get? place = some c ∧
    call.Supplies c

/-- The files of the classes that a load adds are from its class path. -/
theorem Makes.supplies (h : Makes finder name loader id loader')
    (hget : loader'.table.get? place = some c) (habsent : loader.table.get? place = none) :
    finder.Supplies c := by
  -- a new class is an array, which nothing supplies, or was just read from what the finder gave
  induction h generalizing c with
  | present _ => exact absurd hget (by simp [habsent])
  | @located name loader file source _ _ hread =>
    obtain ⟨found, hfound, rfl, hparse, -⟩ := Finder.located_of_read hread
    refine ClassTable.of_get?_push (fun c hold => ?_) ?_ hget
    · exact absurd hold (by simp [habsent])
    · intro file source hkind
      cases hkind
      exact ⟨found, hfound, rfl, hparse⟩
  | objectArray _ _ _ ih =>
    exact ClassTable.of_get?_push (fun _ hold => ih hold habsent)
      (Finder.supplies_of_isArray _ rfl) hget
  | objectArrays _ _ _ _ ih =>
    exact ClassTable.of_get?_push (fun _ hold => ih hold habsent)
      (Finder.supplies_of_isArray _ rfl) hget
  | primitiveArray _ _ =>
    refine ClassTable.of_get?_push (fun c hold => ?_) (Finder.supplies_of_isArray _ rfl) hget
    exact absurd hold (by simp [habsent])
  | primitiveArrays _ _ _ _ ih =>
    exact ClassTable.of_get?_push (fun _ hold => ih hold habsent)
      (Finder.supplies_of_isArray _ rfl) hget

/-- One call: whatever it adds, it supplies. -/
theorem supplies_apply {call : Call} (hget : (call.apply loader).table.get? place = some c)
    (habsent : loader.table.get? place = none) : call.Supplies c := by
  cases call with
  | load finder name =>
    rw [Call.apply] at hget
    cases hrun : load finder name loader with
    | mk r loader' =>
      rw [hrun] at hget
      cases loads_load hrun with
      | made h => exact h.supplies hget habsent
      | missed _ _ => exact absurd hget (by simp [habsent])
      | malformed _ => exact absurd hget (by simp [habsent])
  | loadBytes bytes =>
    rw [Call.apply] at hget
    cases hrun : loadBytes bytes loader with
    | mk r loader' =>
      rw [hrun] at hget
      rcases loadBytes_cases hrun with ⟨_, -, rfl⟩ | ⟨file, hparse, -, -, rfl⟩
      · exact absurd hget (by simp [habsent])
      · refine ⟨file, ?_, hparse⟩
        change (loader.table.push (.ofKind file.thisClass (.instances file none))).get? place =
          some c at hget
        rw [ClassTable.get?_push, habsent] at hget
        split at hget
        · obtain rfl := Option.some.inj hget
          rfl
        · cases hget

/-- All calls, by induction on them: every class was brought in by one. -/
theorem introduced_after (calls : List Call)
    (hget : (after calls).table.get? place = some c) : Introduced calls place c := by
  induction calls using List.reverseRecOn with
  | nil => exact absurd hget (by simp [after, empty])
  | append_singleton calls call ih =>
    cases hold : (after calls).table.get? place with
    | none =>
      refine ⟨calls, call, [], rfl, hold, hget, ?_⟩
      rw [after_concat] at hget
      exact supplies_apply hget hold
    | some d =>
      have hkept := (grows_apply call (after calls)).built.get?_of_some hold
      rw [after_concat, hkept] at hget
      obtain rfl := Option.some.inj hget
      obtain ⟨before, call', rest, rfl, habsent, hbrought, hsupplies⟩ := ih hold
      exact ⟨before, call', rest ++ [call], by simp, habsent, hbrought, hsupplies⟩

/-- Every class was added by one of the loads, under the class path of that load. -/
theorem introduced_afterLoads {loads : List (Finder × String)}
    (hget : (afterLoads loads).table.get? place = some c) :
    ∃ finder name before, (after before).table.get? place = none ∧
      (load finder name (after before)).2.table.get? place = some c ∧ finder.Supplies c := by
  obtain ⟨before, call, rest, hcalls, habsent, hbrought, hsupplies⟩ := introduced_after _ hget
  have hmem : call ∈ loads.map fun load => Call.load load.1 load.2 := by simp [hcalls]
  obtain ⟨⟨finder, name⟩, -, rfl⟩ := List.mem_map.mp hmem
  rw [after_concat] at hbrought
  exact ⟨finder, name, before, habsent, hbrought, hsupplies⟩

/-- Nothing was handed in. -/
theorem source_of_afterLoads {loads : List (Finder × String)} {file : ClassFile}
    (hget : (afterLoads loads).table.get? place = some c) : c.kind ≠ .instances file none := by
  intro hkind
  obtain ⟨_, _, _, -, -, hsupplies⟩ := introduced_afterLoads hget
  obtain ⟨_, -, hsource, -⟩ := hsupplies file none hkind
  cases hsource

end Loader

end ClassHost
