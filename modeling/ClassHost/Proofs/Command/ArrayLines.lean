import Mathlib
import ClassHost.Proofs.Command.Lines
import ClassHost.Proofs.Loader.ArrayNames
import ClassHost.Proofs.Loader.Provenance

/-!
# Two ways to tell of arrays

A line about an array class is printed from a plan, which has read the descriptor, or from classes
in the table of a loader, which refer to each other by place. The two say the same: an array class
in the table is of the kind that its name asks for, and stands on the classes that the plan for the
name gives as its elements (`ReportLine.classText_eq_planText`). That rests on what a loader checks
when it defines a class (`Defines`), and so it does not matter what was loaded before, nor over
which class paths.

What keeps bracketed names and the empty name from belonging to classes that are no arrays is that
nothing is handed in: all classes come from loads by name (`Loader.afterLoads`).
-/

namespace ClassHost

-- ---------------------------------------------------------------------------
-- Loads by name only
-- ---------------------------------------------------------------------------

/-- The name of the class stands for something. -/
def LoadedClass.Planned (c : LoadedClass) : Prop := ∃ plan, LoadPlan.resolve c.name = .ok plan

theorem LoadedClass.Planned.ofKind {name : String} {plan : LoadPlan}
    (h : LoadPlan.resolve name = .ok plan) (kind : ClassKind) :
    (LoadedClass.ofKind name kind).Planned :=
  ⟨plan, h⟩

namespace Loader

variable {finder : Finder} {name : String} {id place : ClassId} {loader loader' : Loader}
variable {c : LoadedClass}

/-- What a load adds has a name that stands for something. -/
theorem Makes.planned (h : Makes finder name loader id loader')
    (hget : loader'.table.get? place = some c) (habsent : loader.table.get? place = none) :
    c.Planned := by
  -- a class already there is not new, and each new one has the plan it was made by
  induction h generalizing c with
  | present _ => exact absurd hget (by simp [habsent])
  | @located name loader _ _ hplain _ _ =>
    refine ClassTable.of_get?_push (fun c hold => ?_) (.ofKind hplain _) hget
    exact absurd hold (by simp [habsent])
  | objectArray hcomponent _ _ ih =>
    have hplan := resolve_objectArray hcomponent (show 0 < LoadPlan.maxDimensions by decide)
    exact ClassTable.of_get?_push (fun _ hold => ih hold habsent) (.ofKind hplan _) hget
  | objectArrays hcomponent houter _ _ ih =>
    have hplan := resolve_objectArray hcomponent houter
    exact ClassTable.of_get?_push (fun _ hold => ih hold habsent) (.ofKind hplan _) hget
  | primitiveArray hvoid _ =>
    have hplan := resolve_primitiveArray hvoid (show 0 < LoadPlan.maxDimensions by decide)
    refine ClassTable.of_get?_push (fun c hold => ?_) (.ofKind hplan _) hget
    exact absurd hold (by simp [habsent])
  | primitiveArrays hvoid houter _ _ ih =>
    have hplan := resolve_primitiveArray hvoid houter
    exact ClassTable.of_get?_push (fun _ hold => ih hold habsent) (.ofKind hplan _) hget

theorem planned_of_afterLoads {loads : List (Finder × String)}
    (hget : (afterLoads loads).table.get? place = some c) :
    c.Planned := by
  obtain ⟨finder, name, before, habsent, hbrought, -⟩ := introduced_afterLoads hget
  cases hrun : load finder name (after before) with
  | mk r loader' =>
    rw [hrun] at hbrought
    cases loads_load hrun with
    | made h => exact h.planned hbrought habsent
    | missed _ _ => exact absurd hbrought (by simp [habsent])
    | malformed _ => exact absurd hbrought (by simp [habsent])

end Loader

-- ---------------------------------------------------------------------------
-- Plans and classes
-- ---------------------------------------------------------------------------

namespace ReportLine

variable {table : ClassTable} {id : ClassId} {c : LoadedClass}

theorem planText_objectArray (plan : ArrayPlan String) :
    planText (.objectArray plan) = descriptionText
      ⟨plan.descriptor, some (.objectArray plan.dimension (.ofPlan .component plan))⟩ := by
  cases plan with
  | last descriptor component => rfl
  | level descriptor inner => rfl

theorem planText_primitiveArray (plan : ArrayPlan BaseType) :
    planText (.primitiveArray plan) = descriptionText
      ⟨plan.descriptor, some (.primitiveArray plan.dimension (.ofPlan .primitive plan))⟩ := by
  cases plan with
  | last descriptor component => rfl
  | level descriptor inner => rfl

/-- **Classes mirror plans.** A class under a bracketed name that was not handed in is told of as
the plan for its name is, one case for each way to define a class. -/
theorem classText_eq_planText (hwell : table.WellFormed) (hget : table.get? id = some c)
    (hdefines : Defines table c.name c.kind) (hhanded : ∀ file, c.kind ≠ .instances file none)
    (hbracket : IsBracketed c.name) :
    ∃ plan, LoadPlan.resolve c.name = .ok plan ∧ classText table id = planText plan := by
  rw [classText_eq hwell, ClassTable.describe_of_get? hget]
  obtain ⟨name, kind, state, role, statics⟩ := c
  dsimp only at hdefines hhanded hbracket ⊢
  -- a definition says of which element and depth the name is, and the plan of that name the same
  cases hdefines with
  | located hhead _ => exact absurd hbracket hhead
  | @handedIn file _ => exact absurd rfl (hhanded file)
  | objectArray hcomponent htype hname =>
    subst hname
    refine ⟨_, resolve_objectArray hcomponent (by decide), ?_⟩
    rw [planText_objectArray, ClassTable.formOf, ClassTable.nameOf_of_find? htype,
      ArrayPlan.descriptor_build, ArrayPlan.dimension_build]
    rfl
  | objectArrays hcomponent houter hdown hname =>
    subst hname
    refine ⟨_, resolve_objectArray hcomponent houter, ?_⟩
    rw [planText_objectArray, ClassTable.formOf, ClassTable.nameOf_of_find? hdown,
      ArrayPlan.descriptor_build, ArrayPlan.dimension_build, ElementForm.ofPlan_build_succ]
  | primitiveArray hvoid hname =>
    subst hname
    refine ⟨_, resolve_primitiveArray hvoid (by decide), ?_⟩
    rw [planText_primitiveArray, ClassTable.formOf, ArrayPlan.descriptor_build,
      ArrayPlan.dimension_build]
    rfl
  | primitiveArrays hvoid houter hdown hname =>
    subst hname
    refine ⟨_, resolve_primitiveArray hvoid houter, ?_⟩
    rw [planText_primitiveArray, ClassTable.formOf, ClassTable.nameOf_of_find? hdown,
      ArrayPlan.descriptor_build, ArrayPlan.dimension_build, ElementForm.ofPlan_build_succ]

/-- A line about an array class never lacks the name of what the class holds: it holds primitives,
or the class that it holds is there. -/
theorem names_element (hwell : table.WellFormed) (hget : table.get? id = some c)
    (harray : c.isArray = true) :
    (∃ dimension type, c.kind = .primitiveArray ⟨dimension, .component type⟩) ∨
      ∃ element, (table.elementClass? id).bind table.get? = some element ∧
        elementName table id = element.name := by
  -- only the innermost primitive array has no class for its element
  have hcases : (∃ dimension type, c.kind = .primitiveArray ⟨dimension, .component type⟩) ∨
      ∃ element, c.kind.element? = some element := by
    obtain ⟨name, kind, state, role, statics⟩ := c
    cases kind with
    | instances file source => cases harray
    | objectArray shape =>
      obtain ⟨dimension, type | array⟩ := shape
      · exact .inr ⟨type, rfl⟩
      · exact .inr ⟨array, rfl⟩
    | primitiveArray shape =>
      obtain ⟨dimension, type | array⟩ := shape
      · exact .inl ⟨dimension, type, rfl⟩
      · exact .inr ⟨array, rfl⟩
  refine hcases.imp_right fun ⟨element, hkind⟩ => ?_
  have helement := (ClassTable.elementClass?_of_get? hget).trans hkind
  obtain ⟨c', hget'⟩ := hwell.exists_element helement
  refine ⟨c', by rw [helement, Option.bind_some, hget'], ?_⟩
  rw [elementName_of_elementClass? hwell helement, ClassTable.nameOf_of_get? hget']

end ReportLine

-- ---------------------------------------------------------------------------
-- Both commands
-- ---------------------------------------------------------------------------

/-- A file that is refused has a wrong format. -/
theorem Finder.exists_classFormat_of_read {finder : Finder} {name : String} {error : Throwable}
    (h : finder.read name = .error error) : ∃ cause, error = .classFormat name cause := by
  unfold Finder.read at h
  split at h
  · cases h
  · split at h
    · exact ⟨_, (Except.error.inj h).symm⟩
    · split at h
      · exact ⟨_, (Except.error.inj h).symm⟩
      · cases h

variable {d : String}

/-- What a load of a bracketed or empty name comes to: it is missing, or of a wrong format, or told
of as the plan for it. -/
theorem Loader.report_cases (hd : d = "" ∨ IsBracketed d) (loads : List (Finder × String))
    (finder : Finder) :
    (load finder d (afterLoads loads)).1 = .ok none ∨
    (∃ className cause,
      (load finder d (afterLoads loads)).1 = .error (.classFormat className cause)) ∨
    (report finder d (afterLoads loads)).1 = .ofPlan d := by
  rw [report_apply]
  cases hrun : load finder d (afterLoads loads) with
  | mk r loader' =>
    have hconcat : afterLoads (loads ++ [(finder, d)]) = loader' := by
      rw [afterLoads_concat, hrun]
    -- a class that is made is told by the plan of its name, and so is a name without a plan
    cases loads_load hrun with
    | @made id _ h =>
      obtain ⟨c, hget, rfl⟩ := ClassTable.get?_of_find? h.find?
      rw [← hconcat] at hget
      obtain ⟨plan, hplan⟩ := planned_of_afterLoads hget
      have hbracket : IsBracketed c.name := hd.resolve_left fun hempty => by
        rw [hempty] at hplan
        cases hplan
      obtain ⟨plan', hplan', htext⟩ := ReportLine.classText_eq_planText (wellFormed_afterLoads _) hget
        (defines_after _ hget) (fun _ => source_of_afterLoads hget) hbracket
      refine .inr (.inr ?_)
      rw [hconcat] at htext
      rw [ReportLine.ofPlan, hplan']
      exact congrArg (ReportLine.mk · true) htext
    | missed _ hmisses =>
      cases hmisses with
      | missing _ => exact .inl rfl
      | refused hread =>
        obtain ⟨cause, rfl⟩ := Finder.exists_classFormat_of_read hread
        exact .inr (.inl ⟨_, _, rfl⟩)
    | malformed hplan =>
      refine .inr (.inr ?_)
      rw [ReportLine.ofPlan, hplan]
      rfl

/-- The line about a name in a run in which it follows other names. -/
def Loader.reportBehind (finder : Finder) (names : List String) (name : String) : ReportLine :=
  (report finder name (reports finder names .empty).2).1

/-- Loads over one class path, as a run does them. -/
theorem Loader.reports_empty (finder : Finder) (names : List String) :
    reports finder names .empty =
      (names.map finder.line, afterLoads (names.map fun name => (finder, name))) := by
  have hreports := reports_after finder [] names
  rw [afterLoads, List.map_map]
  exact hreports

/-- What comes before a name in a run does not show in the line about it. -/
theorem Loader.reportBehind_eq_line (finder : Finder) (names : List String) (name : String) :
    reportBehind finder names name = finder.line name := by
  rw [reportBehind, reports_empty, afterLoads, List.map_map]
  exact congrArg Prod.fst (report_after finder names name)

theorem Loader.reportBehind_cases (hd : d = "" ∨ IsBracketed d) (finder : Finder)
    (names : List String) :
    reportBehind finder names d = ⟨d ++ ": not found", false⟩ ∨
    (∃ className cause, reportBehind finder names d =
      ⟨d ++ ": " ++ (Throwable.classFormat className cause).message, false⟩) ∨
    reportBehind finder names d = .ofPlan d := by
  rw [reportBehind, reports_empty]
  rcases report_cases hd (names.map fun name => (finder, name)) finder with
    hnone | ⟨className, cause, herror⟩ | hplan
  · refine .inl ?_
    rw [report_apply, hnone]
    rfl
  · refine .inr (.inl ⟨className, cause, ?_⟩)
    rw [report_apply, herror]
    rfl
  · exact .inr (.inr hplan)

/-- A run prints the line about its last name behind the lines about the others. -/
theorem Command.run_load_concat {files : FileSystem} {classPath : List String}
    {entries : List ClassPath.Entry}
    (hentries : classPath.mapM (ClassPath.Entry.ofPath files) = .ok entries)
    (names : List String) (name : String) :
    (Command.load classPath (names ++ [name])).run files =
      .ofLines ((Loader.reports (ClassPath.search files entries) names .empty).1 ++
        [Loader.reportBehind (ClassPath.search files entries) names name]) := by
  rw [Command.run_load hentries, List.map_append, Loader.reportBehind_eq_line,
    Loader.reports_empty]
  rfl

/-- **Both commands tell the same of arrays.** Take a name that is empty or begins with a bracket.

* After any loads by name, over class paths that may differ from load to load, a load of the name
  that neither misses its class nor comes upon a wrong format is told of by the line that its plan
  is told of by, which is also the line about a name without a plan.
* So in a run that loads the name behind others, the line about it says that nothing was found, or
  tells of a wrong format, or is the one line that a run prints that resolves the name.
* A line about any class that is there then names what the class holds: the placeholder for a class
  that is not there is never printed. -/
theorem arrays_told_alike (hd : d = "" ∨ IsBracketed d) :
    (∀ (loads : List (Finder × String)) (finder : Finder),
      (Loader.load finder d (Loader.afterLoads loads)).1 ≠ .ok none →
      (∀ className cause, (Loader.load finder d (Loader.afterLoads loads)).1 ≠
        .error (.classFormat className cause)) →
      (Loader.report finder d (Loader.afterLoads loads)).1 = .ofPlan d) ∧
    (∀ files classPath entries names,
      classPath.mapM (ClassPath.Entry.ofPath files) = .ok entries →
      let finder := ClassPath.search files entries
      let line := Loader.reportBehind finder names d
      (Command.load classPath (names ++ [d])).run files =
        .ofLines ((Loader.reports finder names .empty).1 ++ [line]) ∧
      (line = ⟨d ++ ": not found", false⟩ ∨
        (∃ className cause,
          line = ⟨d ++ ": " ++ (Throwable.classFormat className cause).message, false⟩) ∨
        (Command.resolve [d]).run files = .ofLines [line])) ∧
    (∀ loads id c, (Loader.afterLoads loads).table.get? id = some c → c.isArray = true →
      (∃ dimension type, c.kind = .primitiveArray ⟨dimension, .component type⟩) ∨
        ∃ element, ((Loader.afterLoads loads).table.elementClass? id).bind
            (Loader.afterLoads loads).table.get? = some element ∧
          ReportLine.elementName (Loader.afterLoads loads).table id = element.name) := by
  refine ⟨fun loads finder hfound hformat => ?_, fun files classPath entries names hentries => ?_,
    fun loads id c => ReportLine.names_element (Loader.wellFormed_afterLoads loads)⟩
  · rcases Loader.report_cases hd loads finder with hnone | ⟨_, _, herror⟩ | hline
    · exact absurd hnone hfound
    · exact absurd herror (hformat _ _)
    · exact hline
  · refine ⟨Command.run_load_concat hentries names d, ?_⟩
    rcases Loader.reportBehind_cases hd (ClassPath.search files entries) names with
      hnone | herror | hplan
    · exact .inl hnone
    · exact .inr (.inl herror)
    · exact .inr (.inr (congrArg (fun line => Outcome.ofLines [line]) hplan.symm))

/-- The directory `lib` has a class `A` when `A` is loaded, and nothing is left of it when an array
of arrays of `A` is: the line about the array is that of its plan all the same. With the directory
in place, a run over both names prints it behind the line about `A`. -/
theorem letterFiles_told_alike :
    IsBracketed "[[LA;" ∧
    (Loader.load (fun _ => none) "[[LA;" (Loader.afterLoads
      [(ClassPath.search letterFiles [.directory "lib"], "A")])).1 = .ok (some ⟨2⟩) ∧
    (Loader.report (fun _ => none) "[[LA;" (Loader.afterLoads
      [(ClassPath.search letterFiles [.directory "lib"], "A")])).1 = .ofPlan "[[LA;" ∧
    (Command.load ["lib"] (["A"] ++ ["[[LA;"])).run letterFiles = .ofLines
      ((Loader.reports (ClassPath.search letterFiles [.directory "lib"]) ["A"] .empty).1 ++
        [Loader.reportBehind (ClassPath.search letterFiles [.directory "lib"]) ["A"] "[[LA;"]) ∧
    (Command.load ["lib"] (["A"] ++ ["[[LA;"])).run letterFiles =
      ⟨0, "A: instance, from lib/A.class, 0 methods\n" ++
        "[[LA;: object array, dimension 2, element [LA;\n", none⟩ := by
  have hbracket : IsBracketed "[[LA;" := by decide
  have hloaded : (Loader.load (fun _ => none) "[[LA;" (Loader.afterLoads
      [(ClassPath.search letterFiles [.directory "lib"], "A")])).1 = .ok (some ⟨2⟩) := by cbv
  obtain ⟨hline, hrun, -⟩ := arrays_told_alike (.inr hbracket)
  refine ⟨hbracket, hloaded, hline _ _ ?_ ?_, (hrun letterFiles ["lib"] _ ["A"] (by cbv)).1, by cbv⟩
  · simp [hloaded]
  · simp [hloaded]

end ClassHost
