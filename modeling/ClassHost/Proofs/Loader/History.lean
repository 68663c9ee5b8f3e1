import ClassHost.Proofs.Loader.Results

/-!
# Loaders in use

A loader in use has been empty once and has since been asked to load names and to take classes from
bytes, in any order and over class paths that may change from call to call. `after` is what it holds
then. Its table is built from the empty one (`built_after`), and every class in it could be made
again as it stands, from what the table holds now (`defines_after`): that is the invariant from
which statements about all reachable tables follow.
-/

namespace ClassHost

theorem Defines.push {table : ClassTable} {name : String} {kind : ClassKind} {new : LoadedClass}
    (h : Defines table name kind) : Defines (table.push new) name kind := by
  cases h with
  | located hhead hname => exact .located hhead hname
  | handedIn hname => exact .handedIn hname
  | objectArray hcomponent htype hname =>
    exact .objectArray hcomponent (ClassTable.find?_push_of_some htype) hname
  | objectArrays hcomponent houter hdown hname =>
    exact .objectArrays hcomponent houter (ClassTable.find?_push_of_some hdown) hname
  | primitiveArray hvoid hname => exact .primitiveArray hvoid hname
  | primitiveArrays hvoid houter hdown hname =>
    exact .primitiveArrays hvoid houter (ClassTable.find?_push_of_some hdown) hname

/-- Classes of a table that was built from nothing could be made again. -/
theorem Built.defines {table : ClassTable} (h : Built .empty table) {id : ClassId}
    {c : LoadedClass} (hget : table.get? id = some c) : Defines table c.name c.kind := by
  induction h with
  | refl => simp at hget
  | add _ _ hkind ih =>
    rw [ClassTable.get?_push] at hget
    split at hget
    · obtain rfl := Option.some.inj hget
      exact hkind.push
    · exact (ih hget).push

namespace Loader

/-- A call on a loader. The class path belongs to the call, as it may change in between. -/
inductive Call where
  | load (finder : Finder) (name : String)
  | loadBytes (bytes : Bytes)

/-- What a call leaves behind, whatever it returns. -/
def Call.apply : Call → Loader → Loader
  | load finder name, loader => (Loader.load finder name loader).2
  | loadBytes bytes, loader => (Loader.loadBytes bytes loader).2

/-- What calls leave behind, from an empty loader on. -/
def after (calls : List Call) : Loader :=
  calls.foldl (fun loader call => call.apply loader) .empty

theorem after_append (calls later : List Call) :
    after (calls ++ later) = later.foldl (fun loader call => call.apply loader) (after calls) :=
  List.foldl_append

theorem after_concat (calls : List Call) (call : Call) :
    after (calls ++ [call]) = call.apply (after calls) :=
  after_append calls [call]

/-- What loads by name leave behind, each over a class path of its own, as files may change in
between. -/
def afterLoads (loads : List (Finder × String)) : Loader :=
  after (loads.map fun load => .load load.1 load.2)

theorem afterLoads_concat (loads : List (Finder × String)) (finder : Finder) (name : String) :
    afterLoads (loads ++ [(finder, name)]) = (load finder name (afterLoads loads)).2 := by
  rw [afterLoads, List.map_append, List.map_singleton, after_concat]
  rfl

theorem grows_apply (call : Call) (loader : Loader) : Grows loader (call.apply loader) := by
  cases call with
  | load finder name => exact (spec_load finder name loader _ _ rfl).grows
  | loadBytes bytes => exact grows_loadBytes (Prod.eta (Loader.loadBytes bytes loader)).symm

theorem grows_foldl (calls : List Call) (loader : Loader) :
    Grows loader (calls.foldl (fun loader call => call.apply loader) loader) := by
  induction calls generalizing loader with
  | nil => exact .refl loader
  | cons call calls ih => exact (grows_apply call loader).trans (ih _)

theorem built_after (calls : List Call) : Built .empty (after calls).table :=
  (grows_foldl calls .empty).built

/-- Later calls build on what is there. -/
theorem built_after_append (calls later : List Call) :
    Built (after calls).table (after (calls ++ later)).table := by
  rw [after_append]
  exact (grows_foldl later (after calls)).built

theorem defines_after (calls : List Call) {id : ClassId} {c : LoadedClass}
    (hget : (after calls).table.get? id = some c) : Defines (after calls).table c.name c.kind :=
  (built_after calls).defines hget

end Loader

end ClassHost
