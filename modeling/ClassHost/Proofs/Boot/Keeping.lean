import ClassHost.Proofs.Boot.Requirements
import ClassHost.Proofs.Machine.Moments

/-!
# What a start keeps for good

A start keeps two things that nothing takes away again: the well-known classes, and the overrides.
Both are relied on later without another look, so what they need has to be there when they are kept,
and has to last. `Upkeep.Warranted` says what has to be there.

The machine's own procedures keep nothing that is not warranted, with whatever engine, and also in a
start that fails a moment later (`Machine.inOrder_of_asked`). That is not a matter of what a start
has achieved at its end, but of every step on the way: each check comes before what it is for, and
what was checked lasts until then, even where code of the program runs in between.

`Maintained` is what a property of machines has to meet to hold throughout: accesses and warranted
changes keep it. Then it holds at every mark of every run and at its end (`Maintained.trace`).
-/

namespace ClassHost

open Procedure

variable {σ ε α β : Type} {engine : Engine σ} {fuel : Nat} {m m' : Machine σ} {part : Asked σ}

-- ---------------------------------------------------------------------------
-- Steps in order
-- ---------------------------------------------------------------------------

/-- A request that does not put all overrides in place without a look at their classes. -/
def Request.SparesOverrides : Request σ → Prop
  | .access .installOverrides => False
  | _ => True

/-- What the machine keeps for good is all there: the well-known classes under their names, with a
class for strings, or the methods of a module, with a charset. -/
def Upkeep.Warranted (upkeep : Upkeep) (m : Machine σ) : Prop :=
  match upkeep with
  | .capture known =>
    m.table.Finds CoreName.core known.core ∧ m.table.Finds CoreName.exceptions known.exceptions ∧
      m.strings.stringClass.isSome
  | .install entry => entry.Declared m.table ∧ m.charset.isSome
  | .note _ | .setBoot _ | .setCharset _ => True

/-- A step that keeps nothing unwarranted. Of requests, some are allowed. -/
def Asked.InOrder (allowed : Request σ → Prop) (part : Asked σ) : Prop :=
  match part.step with
  | .request request => allowed request
  | .callEngine _ => True
  | .upkeep upkeep => upkeep.Warranted part.machine

theorem Asked.InOrder.mono {allowed other : Request σ → Prop}
    (h : ∀ request, allowed request → other request) (hpart : part.InOrder allowed) :
    part.InOrder other := by
  obtain ⟨step, machine⟩ := part
  cases step with
  | request request => exact h request hpart
  | callEngine call => exact trivial
  | upkeep upkeep => exact hpart

/-- A step that is in order on every machine. -/
def Step.Harmless : Step σ → Prop
  | .request op => op.SparesOverrides
  | .upkeep (.capture _) | .upkeep (.install _) => False
  | _ => True

theorem Step.harmless_of_errand {step : Step σ} (h : step.Errand) : step.Harmless := by
  cases step with
  | request op =>
    cases op with
    | access access => cases access <;> first | exact trivial | exact h.elim
    | _ => exact trivial
  | _ => exact h.elim

theorem Asked.inOrder_of_harmless (h : part.step.Harmless) :
    part.InOrder Request.SparesOverrides := by
  obtain ⟨step, machine⟩ := part
  cases step with
  | request request => exact h
  | callEngine call => exact trivial
  | upkeep upkeep => cases upkeep <;> first | exact trivial | exact h.elim

-- ---------------------------------------------------------------------------
-- What lasts
-- ---------------------------------------------------------------------------

namespace Machine

/-- The pool stays bound. -/
theorem bound_access (access : Access σ) (h : m.strings.stringClass.isSome) :
    (access.apply m).2.strings.stringClass.isSome := by
  obtain ⟨type, htype⟩ := Option.isSome_iff_exists.mp h
  exact Option.isSome_iff_exists.mpr ⟨type, (access.touches m).strings.stringClass htype⟩

theorem invariant_bound : Invariant fun _ (m : Machine σ) => m.strings.stringClass.isSome where
  access access h := bound_access access h
  upkeep {_ m} upkeep h := by
    rw [(upkeep.keeps m).2.2.1]
    exact h
  threads _ _ h := h

theorem charset_access (access : Access σ) (m : Machine σ) :
    (access.apply m).2.charset = m.charset :=
  (access.touches m).charset (by cases access <;> simp [Access.touched])

/-- A charset that was set stays. -/
theorem isSome_charset_upkeep (upkeep : Upkeep) (h : m.charset.isSome) :
    (upkeep.apply m).2.charset.isSome := by
  cases upkeep with
  | note event => exact h
  | setBoot state => exact h
  | install entry => exact h
  | capture known =>
    rw [Upkeep.apply_capture]
    split <;> exact h
  | setCharset charset =>
    rw [Upkeep.apply_setCharset, if_pos h]
    exact h

end Machine

theorem ClassTable.Keeps.finds {table table' : ClassTable} (h : table.Keeps table')
    {names : List String} {types : List ClassId} (hfinds : table.Finds names types) :
    table'.Finds names types :=
  hfinds.imp fun _ _ hfind => h.find? hfind

/-- What is warranted for the well-known classes lasts. -/
theorem warranted_capture_keep {known : WellKnown} (h : (Upkeep.capture known).Warranted m)
    (htable : m.table.Keeps m'.table)
    (hbound : m.strings.stringClass.isSome → m'.strings.stringClass.isSome) :
    (Upkeep.capture known).Warranted m' := by
  obtain ⟨hcore, hexceptions, hstrings⟩ := h
  exact ⟨htable.finds hcore, htable.finds hexceptions, hbound hstrings⟩

namespace Procedure

theorem bound_of_exec {procedure : Procedure σ ε α} {r : Except Halt (Except ε α)}
    (h : exec engine fuel procedure m = (r, m')) (hbound : m.strings.stringClass.isSome) :
    m'.strings.stringClass.isSome := by
  have hlast := Machine.holds_exec Machine.invariant_bound engine fuel procedure hbound
  rwa [h] at hlast

theorem warranted_capture_of_exec {known : WellKnown} {procedure : Procedure σ ε α}
    {r : Except Halt (Except ε α)} (h : exec engine fuel procedure m = (r, m'))
    (hknown : (Upkeep.capture known).Warranted m) : (Upkeep.capture known).Warranted m' := by
  have hkeeps := keeps_exec engine fuel procedure m
  rw [h] at hkeeps
  exact warranted_capture_keep hknown hkeeps (bound_of_exec h)

-- ---------------------------------------------------------------------------
-- Procedures in order
-- ---------------------------------------------------------------------------

/-- Whatever the procedure asks for is in order. -/
def InOrder (engine : Engine σ) (fuel : Nat) (procedure : Procedure σ ε α) (m : Machine σ) : Prop :=
  ∀ part ∈ asked engine fuel procedure m, part.InOrder Request.SparesOverrides

theorem inOrder_of_asks {procedure : Procedure σ ε α} (h : Asks Step.Harmless procedure)
    (m : Machine σ) : InOrder engine fuel procedure m := by
  intro part hpart
  obtain ⟨step, hstep, hpart⟩ := h.of_mem_asked hpart
  obtain rfl : part.step = step := hpart
  exact Asked.inOrder_of_harmless hstep

theorem Asks.inOrder {procedure : Procedure σ ε α} (h : Asks Step.Errand procedure)
    (m : Machine σ) : InOrder engine fuel procedure m :=
  inOrder_of_asks (h.mono fun _ => Step.harmless_of_errand) m

theorem inOrder_pure (a : α) (m : Machine σ) :
    InOrder engine fuel (pure a : Procedure σ ε α) m :=
  inOrder_of_asks (asks_pure a) m

theorem inOrder_throw (e : ε) (m : Machine σ) :
    InOrder engine fuel (throw e : Procedure σ ε α) m :=
  inOrder_of_asks (asks_throw e) m

theorem inOrder_access {access : Access σ} (m : Machine σ)
    (h : Request.SparesOverrides (.access access) := by trivial) :
    InOrder engine fuel (Procedure.access access : Procedure σ ε access.Reply) m :=
  inOrder_of_asks (asks_access h) m

theorem inOrder_upkeep {upkeep : Upkeep} (h : upkeep.Warranted m) :
    InOrder engine fuel (Procedure.upkeep upkeep : Procedure σ ε upkeep.Reply) m := by
  intro part hpart
  rw [asked_upkeep] at hpart
  obtain rfl := List.mem_singleton.mp hpart
  exact h

theorem inOrder_bind {x : Procedure σ ε α} {f : α → Procedure σ ε β}
    (hx : InOrder engine fuel x m)
    (hf : ∀ a middle, exec engine fuel x m = (.ok (.ok a), middle) →
      InOrder engine fuel (f a) middle) : InOrder engine fuel (x >>= f) m := by
  intro part hpart
  rcases mem_asked_bind.mp hpart with hpart | ⟨a, middle, hrun, hpart⟩
  · exact hx part hpart
  · exact hf a middle hrun part hpart

-- ---------------------------------------------------------------------------
-- A start in order
-- ---------------------------------------------------------------------------

/-- A pool that a start has bound is bound. -/
theorem bound_of_bindStrings {type : ClassId}
    (h : exec engine fuel (bindStrings type) m = (.ok (.ok ()), m')) :
    m'.strings.stringClass.isSome := by
  have happly : Machine.bindStrings type m = (.ok (), m') :=
    Machine.apply_of_perform_access (perform_of_exec h)
  rw [Machine.bindStrings_apply] at happly
  split at happly
  · rename_i strings hbind
    obtain ⟨-, rfl⟩ := Prod.mk.inj happly
    unfold StringPool.bind at hbind
    split at hbind
    · exact nomatch hbind
    · obtain rfl := Except.ok.inj hbind
      rfl
  · exact nomatch (Prod.mk.inj happly).1

/-- The class that a start has asked for first is found when it is over. -/
theorem require_bind_ok {thread : ThreadId} {name : String} {f : ClassId → Procedure σ Fatal β}
    {b : β} (h : exec engine fuel (require thread name >>= f) m = (.ok (.ok b), m')) :
    ∃ type middle, m'.table.find? name = some type ∧
      exec engine fuel (f type) middle = (.ok (.ok b), m') := by
  obtain ⟨type, middle, hrequire, hrest⟩ := exec_bind_ok h
  obtain ⟨found, loaded, hload, hrequire⟩ := exec_bind_ok hrequire
  have hfind := (loadRequired_ok hload).2
  obtain ⟨_, last, hinit, hreturn⟩ := exec_bind_ok hrequire
  obtain ⟨rfl, rfl⟩ := pure_ok hreturn
  exact ⟨type, middle, find?_of_exec hrest (find?_of_exec hinit hfind), hrest⟩

theorem warranted_of_findWellKnown {thread : ThreadId} {known : WellKnown}
    (h : exec engine fuel (findWellKnown thread) m = (.ok (.ok known), m')) :
    (Upkeep.capture known).Warranted m' := by
  obtain ⟨classObject, _, hclassObject, h⟩ := require_bind_ok h
  obtain ⟨object, _, hobject, h⟩ := require_bind_ok h
  obtain ⟨string, _, hstring, h⟩ := require_bind_ok h
  obtain ⟨_, bound, hbind, h⟩ := exec_bind_ok h
  -- only the binding of the pool makes it bound, and the later lookups leave it so
  have hbound := bound_of_exec h (bound_of_bindStrings (exec_orFatal_ok hbind))
  obtain ⟨cloneable, _, hcloneable, h⟩ := require_bind_ok h
  obtain ⟨serializable, _, hserializable, h⟩ := require_bind_ok h
  obtain ⟨nullPointer, _, hnullPointer, h⟩ := require_bind_ok h
  obtain ⟨arrayIndex, _, harrayIndex, h⟩ := require_bind_ok h
  obtain ⟨classNotFound, _, hclassNotFound, h⟩ := require_bind_ok h
  obtain ⟨internalError, _, hinternalError, h⟩ := require_bind_ok h
  obtain ⟨inputOutput, _, hinputOutput, h⟩ := require_bind_ok h
  obtain ⟨rfl, rfl⟩ := pure_ok h
  exact ⟨.cons hobject (.cons hclassObject (.cons hstring (.cons hcloneable
      (.cons hserializable .nil)))),
    .cons hnullPointer (.cons harrayIndex (.cons hclassNotFound (.cons hinternalError
      (.cons hinputOutput .nil)))), hbound⟩

theorem inOrder_captureWellKnown (thread : ThreadId) (m : Machine σ) :
    InOrder engine fuel (captureWellKnown thread) m := by
  refine inOrder_bind ((asks_findWellKnown thread).inOrder m) fun known found hfound => ?_
  have hknown := warranted_of_findWellKnown hfound
  refine inOrder_bind ((asks_tagAll _ _).inOrder _) fun _ m₁ htag => ?_
  refine inOrder_bind ((asks_tagAll _ _).inOrder _) fun _ m₂ htag' => ?_
  refine inOrder_bind (inOrder_access _) fun _ m₃ hset => ?_
  replace hknown := warranted_capture_of_exec hset
    (warranted_capture_of_exec htag' (warranted_capture_of_exec htag hknown))
  refine inOrder_bind (inOrder_upkeep hknown) fun captured last _ => ?_
  split
  · exact inOrder_throw _ last
  · exact inOrder_pure _ last

/-- A module is put in place after its check, and nothing comes between the two. -/
theorem inOrder_installModules {modules : List OverrideModule} (h : m.charset.isSome) :
    InOrder engine fuel (installModules modules) m := by
  induction modules generalizing m with
  | nil => exact inOrder_pure _ m
  | cons entry modules ih =>
    refine inOrder_bind ((asks_loadRequired _).inOrder m) fun type loaded hload => ?_
    obtain ⟨hloads, hfind⟩ := loadRequired_ok hload
    have hcharset : loaded.charset.isSome := by
      rwa [hloads.touches.charset (by simp)]
    refine inOrder_bind ((asks_checkDeclared type _).inOrder _) fun _ checked hcheck => ?_
    obtain rfl := checkDeclared_ok hcheck
    have hentry : entry.Declared checked.table := ⟨type, hfind, methods_of_checkDeclared hcheck⟩
    refine inOrder_bind (inOrder_upkeep ⟨hentry, hcharset⟩) fun _ installed hinstall => ?_
    obtain ⟨-, rfl⟩ := Prod.mk.inj (exec_upkeep_ok hinstall)
    exact ih hcharset

theorem inOrder_applyOverrides (thread : ThreadId) (m : Machine σ) :
    InOrder engine fuel (applyOverrides thread) m := by
  refine inOrder_bind ((asks_require thread _).inOrder m) fun charsetType _ _ => ?_
  refine inOrder_bind ((asks_require thread _).inOrder _) fun utf8Type _ _ => ?_
  refine inOrder_bind ((asks_newObject utf8Type).inOrder _) fun utf8 _ _ => ?_
  refine inOrder_bind (inOrder_access _) fun _ m₁ _ => ?_
  refine inOrder_bind (inOrder_upkeep trivial) fun set last hset => ?_
  cases set with
  | false => exact inOrder_throw _ last
  | true => exact inOrder_installModules (by rw [(setCharset_ok hset).2]; rfl)

theorem inOrder_layFoundation (thread : ThreadId) (m : Machine σ) :
    InOrder engine fuel (layFoundation thread) m := by
  refine inOrder_bind (inOrder_captureWellKnown thread m) fun _ _ _ => ?_
  refine inOrder_bind ((asks_newMainThread thread).inOrder _) fun main _ _ => ?_
  refine inOrder_bind ((asks_claimSystem thread).inOrder _) fun _ _ _ => ?_
  refine inOrder_bind ((asks_constructMainGroup thread main).inOrder _) fun _ _ _ => ?_
  refine inOrder_bind ((asks_loadRequired _).inOrder _) fun _ _ _ => ?_
  refine inOrder_bind (inOrder_access _) fun _ _ _ => ?_
  exact inOrder_bind ((asks_constructMainThread thread main).inOrder _) fun _ _ _ =>
    inOrder_pure _ _

theorem inOrder_finishLibrary (thread : ThreadId) (claimed : Claimed) (m : Machine σ) :
    InOrder engine fuel (finishLibrary thread claimed) m := by
  refine inOrder_bind (inOrder_applyOverrides thread m) fun _ _ _ => ?_
  refine inOrder_bind ((asks_callDeclared thread _ _ _ (asks_pure _)).inOrder _) fun _ _ _ => ?_
  exact inOrder_bind (inOrder_access _) fun _ _ _ =>
    inOrder_access _

theorem inOrder_bootSequence (thread : ThreadId) (arguments : List String) (m : Machine σ) :
    InOrder engine fuel (bootSequence thread arguments) m := by
  refine inOrder_bind (inOrder_layFoundation thread m) fun claimed _ _ => ?_
  exact inOrder_bind (inOrder_finishLibrary thread claimed _) fun _ _ _ =>
    (asks_installDelegate thread arguments).inOrder _

theorem inOrder_booting (thread : ThreadId) (arguments : List String) (m : Machine σ) :
    InOrder engine fuel (booting thread arguments) m := by
  refine inOrder_bind (inOrder_access m) fun seen middle _ => ?_
  cases seen.boot with
  | failed => exact inOrder_throw _ _
  | booting => exact inOrder_pure _ _
  | booted => exact inOrder_pure _ _
  | notBooted =>
    refine inOrder_bind (inOrder_upkeep trivial) fun _ begun _ => ?_
    -- catching the outcome asks for nothing of its own
    have hsequence : InOrder engine fuel
        (outcome (bootSequence thread arguments) : Procedure σ Fatal _) begun := by
      unfold InOrder
      rw [asked_outcome]
      exact inOrder_bootSequence thread arguments begun
    refine inOrder_bind hsequence fun result _ _ => ?_
    cases result with
    | ok _ => exact inOrder_upkeep trivial
    | error fatal =>
      exact inOrder_bind (inOrder_upkeep trivial) fun _ _ _ => inOrder_throw fatal _

end Procedure

namespace Machine

/-- **The machine's own steps are in order.** Whatever a step asks for that is no call to the
engine, nothing unwarranted is kept. -/
theorem inOrder_of_asked {step : Step σ} (hstep : ∀ call, step ≠ .callEngine call)
    (hpart : part ∈ asked engine fuel step m) : part.InOrder Request.SparesOverrides := by
  -- a start and a supervision set overrides or run a start, so each has its own lemma; the other
  -- procedures ask for harmless steps alone
  have hcontained : ∀ step : Step σ, step.Contained → step.Harmless :=
    fun _ h => Step.harmless_of_errand (Step.errand_of_contained h)
  match step, hstep, hpart with
  | .request (.initClass thread type), _, hpart =>
    have hasks : Asks Step.Harmless (initialization thread type : Procedure σ Throwable Unit) :=
      asks_initialization hcontained (fun _ _ => trivial) (fun _ _ _ => trivial) thread type
    exact inOrder_of_asks hasks m part hpart
  | .request (.invoke thread method arguments), _, hpart =>
    have hasks : Asks Step.Harmless
        (invocation thread method arguments : Procedure σ Throwable (Option Value)) :=
      asks_invocation hcontained (fun _ => trivial) (fun _ => trivial) (fun _ => trivial) thread
        method arguments
    exact inOrder_of_asks hasks m part hpart
  | .request (.boot thread arguments), _, hpart =>
    exact inOrder_booting thread arguments m part hpart
  | .request (.supervise entry arguments), _, hpart =>
    exact (asks_mainThread entry arguments).inOrder m.entered part hpart
  | .callEngine call, hstep, _ => exact absurd rfl (hstep call)
  | .request (.access _), _, hpart | .request .panic, _, hpart | .upkeep _, _, hpart =>
    exact nomatch hpart

end Machine

-- ---------------------------------------------------------------------------
-- Properties that hold throughout
-- ---------------------------------------------------------------------------

/-- A stretch that begins with something good is good at all its marks and at its end. -/
def Upholds (good : Machine σ → Prop) (m : Machine σ) (marks : List (Mark σ)) (m' : Machine σ) :
    Prop :=
  good m → (∀ mark ∈ marks, good mark.machine) ∧ good m'

theorem spans_upholds (good : Machine σ → Prop) :
    Spans fun _ (m : Machine σ) marks m' => Upholds good m marks m' where
  nil _ h := ⟨List.forall_mem_nil _, h⟩
  append h h' hm := by
    obtain ⟨hmarks, hmiddle⟩ := h hm
    obtain ⟨hmarks', hlast⟩ := h' hmiddle
    refine ⟨fun mark hmark => ?_, hlast⟩
    rcases List.mem_append.mp hmark with hmark | hmark
    · exact hmarks mark hmark
    · exact hmarks' mark hmark

/-- What accesses and warranted changes maintain, if engines ask for allowed requests only. -/
structure Maintained (allowed : Request σ → Prop) (good : Machine σ → Prop) : Prop where
  /-- The machine's own procedures are allowed to ask for what they ask for. -/
  own : ∀ request : Request σ, request.SparesOverrides → allowed request
  access : ∀ {m} (access : Access σ), allowed (.access access) → good m → good (access.apply m).2
  upkeep : ∀ {m} (upkeep : Upkeep), upkeep.Warranted m → good m → good (upkeep.apply m).2
  threads : ∀ {m} (registry : Registry σ) (memory : σ), good m →
    good { m with registry, memory }

namespace Maintained

variable {allowed : Request σ → Prop} {good : Machine σ → Prop} {step : Step σ}

/-- The two marks of a step are those of the machines that it finds and leaves. -/
theorem upholds_traceOf_succ
    (h : good m → (∀ mark ∈ Machine.traceAll engine fuel (Machine.asked engine fuel step m),
      good mark.machine) ∧ good (Machine.perform engine (fuel + 1) step m).2) :
    Upholds good m (Machine.traceOf engine (fuel + 1) step m)
      (Machine.perform engine (fuel + 1) step m).2 := by
  intro hm
  obtain ⟨hinner, hlast⟩ := h hm
  refine ⟨fun mark hmark => ?_, hlast⟩
  rw [Machine.traceOf_succ] at hmark
  rcases List.mem_cons.mp hmark with rfl | hmark
  · exact hm
  · rcases List.mem_append.mp hmark with hmark | hmark
    · exact hinner mark hmark
    · obtain rfl := List.mem_singleton.mp hmark
      exact hlast

variable (hmaintained : Maintained allowed good)
  (hengine : ∀ call, (engine.respond call).Only allowed)

include hmaintained hengine

/-- **One step.** -/
theorem upholds_perform (fuel : Nat) (step : Step σ) (m : Machine σ)
    (hstep : Asked.InOrder allowed ⟨step, m⟩) :
    Upholds good m (Machine.traceOf engine fuel step m) (Machine.perform engine fuel step m).2 := by
  induction fuel generalizing step m with
  | zero => exact fun hm => ⟨List.forall_mem_nil _, hm⟩
  | succ fuel ih =>
    refine upholds_traceOf_succ fun hm => ?_
    -- what the machine's own procedures ask for
    have hparts : (∀ call, step ≠ .callEngine call) → ∀ op middle,
        ⟨op, middle⟩ ∈ Machine.asked engine fuel step m →
        Upholds good middle (Machine.traceOf engine fuel op middle)
          (Machine.perform engine fuel op middle).2 :=
      fun hown op middle hpart => ih op middle ((Machine.inOrder_of_asked hown hpart).mono
        hmaintained.own)
    match step, hstep, hparts with
    | .request (.access access), hallowed, _ =>
      exact ⟨List.forall_mem_nil _, hmaintained.access access hallowed hm⟩
    | .request .panic, _, _ => exact ⟨List.forall_mem_nil _, hm⟩
    | .upkeep upkeep, hwarranted, _ =>
      exact ⟨List.forall_mem_nil _, hmaintained.upkeep upkeep hwarranted hm⟩
    | .request (.initClass _ _), _, hparts | .request (.invoke _ _ _), _, hparts
    | .request (.boot _ _), _, hparts =>
      exact spans_parts (spans_upholds good) (hparts nofun) hm
    | .request (.supervise entry arguments), _, hparts =>
      have hentered : good m.entered := hmaintained.threads m.registry.enter m.memory hm
      obtain ⟨hmarks, hbody⟩ := spans_parts (spans_upholds good) (hparts nofun) hentered
      obtain ⟨registry, memory, hlast, -⟩ := Machine.supervised_cases
        ((Procedure.mainThread entry arguments).run.run (Machine.perform engine fuel)) m
      refine ⟨hmarks, ?_⟩
      rw [Machine.perform, hlast]
      exact hmaintained.threads registry memory hbody
    | .callEngine call, _, _ =>
      exact spans_asked (spans_upholds good) (fun request hrequest middle =>
        ih (.request request) middle hrequest) (hengine call) m hm

/-- **Whole runs.** -/
theorem trace {guest : Guest σ α} (hguest : guest.Only allowed) (hm : good m) :
    (∀ mark ∈ Machine.trace engine fuel guest m, good mark.machine) ∧
      good (Machine.run engine fuel guest m).2 :=
  spans_asked (spans_upholds good) (fun request hrequest middle =>
    hmaintained.upholds_perform hengine fuel (.request request) middle hrequest) hguest m hm

end Maintained

end ClassHost
