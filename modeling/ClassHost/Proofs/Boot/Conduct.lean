import ClassHost.Proofs.Boot.Steps
import ClassHost.Proofs.Machine.CallStack

/-!
# How a start conducts itself

A start is a long row of steps, and for every single one it matters what happens if the step fails.
`Conducts` says of a procedure on a machine that all steps it asks for are good, and that it heeds
what they reply: a reply that obliges it to fail makes it fail with the failure that the reply
stands for, and nothing that runs code is asked for behind it. It goes along a procedure from part
to part (`conducts_bind`), with what has been found out on the way. If the procedure succeeds, no
step obliged it to fail, and what the steps keep has been kept (`Conducts.keeps`).

For a start, a failed initialisation or invocation stands for a failure that names the class or the
method, and so does a class that was not found, unless it is the delegate's (`Asked.verdict`). The
steps of a start are instant steps, initialisations and invocations, and the only states that it
sets are those of the two classes that it claims (`Asked.InBoot`). `conducts_booting` puts it
together.
-/

namespace ClassHost

variable {σ ε ε' α β : Type}

-- ---------------------------------------------------------------------------
-- Conduct
-- ---------------------------------------------------------------------------

namespace Procedure

/-- A procedure whose steps are good, and which heeds their replies. -/
structure Conducts (good : Asked σ → Prop) (verdict : (part : Asked σ) → part.step.Reply → Option ε)
    (engine : Engine σ) (fuel : Nat) (procedure : Procedure σ ε α) (m : Machine σ) : Prop where
  asks : ∀ part ∈ asked engine fuel procedure m, good part
  heeds : ∀ before part after reply m' e, asked engine fuel procedure m = before ++ part :: after →
    Machine.perform engine fuel part.step part.machine = (.ok reply, m') →
    verdict part reply = some e →
    (∃ last, exec engine fuel procedure m = (.ok (.error e), last)) ∧
      ∀ other ∈ after, other.step.Instant

variable {good : Asked σ → Prop} {verdict : (part : Asked σ) → part.step.Reply → Option ε}
  {engine : Engine σ} {fuel : Nat} {m : Machine σ}

theorem conducts_of_nil {procedure : Procedure σ ε α}
    (h : asked engine fuel procedure m = []) : Conducts good verdict engine fuel procedure m where
  asks part hmem := by
    rw [h] at hmem
    exact absurd hmem List.not_mem_nil
  heeds before part after _ _ _ hsplit := by
    rw [h] at hsplit
    simp at hsplit

/-- A procedure that asks for one step. -/
theorem conducts_of_step {procedure : Procedure σ ε α} {step : Step σ}
    (h : asked engine fuel procedure m = [⟨step, m⟩]) (hgood : good ⟨step, m⟩)
    (hheeds : ∀ reply m' e, Machine.perform engine fuel step m = (.ok reply, m') →
      verdict ⟨step, m⟩ reply = some e →
      ∃ last, exec engine fuel procedure m = (.ok (.error e), last)) :
    Conducts good verdict engine fuel procedure m where
  asks part hmem := by
    rw [h] at hmem
    rwa [List.mem_singleton.mp hmem]
  heeds before part after reply m' e hsplit hrun hverdict := by
    rw [h] at hsplit
    rcases List.singleton_eq_append_iff.mp hsplit with ⟨-, hpart⟩ | ⟨-, hnil⟩
    · obtain ⟨rfl, rfl⟩ := List.cons.inj hpart
      exact ⟨hheeds reply m' e hrun hverdict, fun _ hmem => absurd hmem List.not_mem_nil⟩
    · simp at hnil

/-- Two procedures in a row. A step that obliges the first one to fail is not followed by the
second. -/
theorem conducts_bind {x : Procedure σ ε α} {f : α → Procedure σ ε β}
    (hx : Conducts good verdict engine fuel x m)
    (hf : ∀ a middle, exec engine fuel x m = (.ok (.ok a), middle) →
      Conducts good verdict engine fuel (f a) middle) :
    Conducts good verdict engine fuel (x >>= f) m where
  asks part hmem := by
    rcases mem_asked_bind.mp hmem with hmem | ⟨a, middle, hrun, hmem⟩
    · exact hx.asks part hmem
    · exact (hf a middle hrun).asks part hmem
  heeds before part after reply m' e hsplit hreply hverdict := by
    rw [asked_bind] at hsplit
    -- a demand in the first program fails it, and with it the whole; one in the second fails that
    rcases split_of_append hsplit with ⟨last, hfirst, rfl⟩ | ⟨first, hsecond, -⟩
    · obtain ⟨⟨last', hrun⟩, hinstant⟩ := hx.heeds before part last reply m' e hfirst hreply hverdict
      rw [hrun, List.append_nil]
      exact ⟨⟨last', exec_bind_of_error hrun⟩, hinstant⟩
    · rcases hrun : exec engine fuel x m with ⟨halt | e' | a, middle⟩
      · rw [hrun] at hsecond
        simp at hsecond
      · rw [hrun] at hsecond
        simp at hsecond
      · rw [hrun] at hsecond
        rw [exec_bind_of_ok hrun]
        exact (hf a middle hrun).heeds first part after reply m' e hsecond hreply hverdict

/-- What is done with the outcome of a procedure passes its failures on. -/
theorem conducts_outcome_bind {x : Procedure σ ε α} {f : Except ε α → Procedure σ ε β}
    (hx : Conducts good verdict engine fuel x m)
    (hf : ∀ result middle, exec engine fuel x m = (.ok result, middle) →
      Conducts good verdict engine fuel (f result) middle)
    (herror : ∀ e middle, 0 < fuel → exec engine fuel x m = (.ok (.error e), middle) →
      (∃ last, exec engine fuel (f (.error e)) middle = (.ok (.error e), last)) ∧
        ∀ other ∈ asked engine fuel (f (.error e)) middle, other.step.Instant) :
    Conducts good verdict engine fuel (outcome x >>= f) m := by
  -- the outcome hides no step: what follows goes on from there, failed or not
  have hasked : asked engine fuel (outcome x >>= f) m = asked engine fuel x m ++
      match exec engine fuel x m with
      | (.ok result, middle) => asked engine fuel (f result) middle
      | (.error _, _) => [] := by
    rw [asked_bind, asked_outcome, exec_outcome]
    rcases exec engine fuel x m with ⟨_ | _, _⟩ <;> rfl
  have hexec : ∀ result middle, exec engine fuel x m = (.ok result, middle) →
      exec engine fuel (outcome x >>= f) m = exec engine fuel (f result) middle := by
    intro result middle hrun
    rw [exec_bind, exec_outcome, hrun]
  constructor
  · intro part hmem
    rw [hasked] at hmem
    rcases List.mem_append.mp hmem with hmem | hmem
    · exact hx.asks part hmem
    · rcases hrun : exec engine fuel x m with ⟨halt | result, middle⟩
      · rw [hrun] at hmem
        exact absurd hmem List.not_mem_nil
      · rw [hrun] at hmem
        exact (hf result middle hrun).asks part hmem
  · intro before part after reply m' e hsplit hreply hverdict
    have hfuel : 0 < fuel := by
      cases fuel with
      | zero => exact nomatch hreply
      | succ fuel => exact Nat.succ_pos fuel
    rw [hasked] at hsplit
    rcases split_of_append hsplit with ⟨last, hfirst, rfl⟩ | ⟨first, hsecond, -⟩
    · -- the demand is in the program itself, whose failure is passed on by what follows
      obtain ⟨⟨middle, hrun⟩, hinstant⟩ := hx.heeds before part last reply m' e hfirst hreply hverdict
      obtain ⟨hpassed, hinstant'⟩ := herror e middle hfuel hrun
      rw [hexec _ _ hrun, hrun]
      refine ⟨hpassed, fun other hmem => ?_⟩
      rcases List.mem_append.mp hmem with hmem | hmem
      · exact hinstant other hmem
      · exact hinstant' other hmem
    · rcases hrun : exec engine fuel x m with ⟨halt | result, middle⟩
      · rw [hrun] at hsecond
        simp at hsecond
      · rw [hrun] at hsecond
        rw [hexec _ _ hrun]
        exact (hf result middle hrun).heeds first part after reply m' e hsecond hreply hverdict

theorem conducts_pure (a : α) :
    Conducts good verdict engine fuel (pure a : Procedure σ ε α) m := conducts_of_nil rfl

theorem conducts_throw (e : ε) :
    Conducts good verdict engine fuel (throw e : Procedure σ ε α) m := conducts_of_nil rfl

theorem conducts_access {access : Access σ} (hgood : good ⟨.request (.access access), m⟩)
    (hquiet : ∀ reply, verdict ⟨.request (.access access), m⟩ reply = none) :
    Conducts good verdict engine fuel (Procedure.access access : Procedure σ ε access.Reply) m := by
  refine conducts_of_step (asked_access access) hgood fun reply m' e _ hverdict => ?_
  rw [hquiet] at hverdict
  exact nomatch hverdict

theorem conducts_upkeep {upkeep : Upkeep} (hgood : good ⟨.upkeep upkeep, m⟩)
    (hquiet : ∀ reply, verdict ⟨.upkeep upkeep, m⟩ reply = none) :
    Conducts good verdict engine fuel (Procedure.upkeep upkeep : Procedure σ ε upkeep.Reply) m := by
  refine conducts_of_step (asked_upkeep upkeep) hgood fun reply m' e _ hverdict => ?_
  rw [hquiet] at hverdict
  exact nomatch hverdict

/-- **What good steps keep**, as long as none of them obliges the procedure to fail, is kept by a
procedure that succeeds. -/
theorem Conducts.keeps {procedure : Procedure σ ε α}
    (h : Conducts good verdict engine fuel procedure m) {holds : Machine σ → Prop}
    (hstep : ∀ (part : Asked σ) reply m', good part → verdict part reply = none →
      Machine.perform engine fuel part.step part.machine = (.ok reply, m') → holds part.machine →
      holds m')
    {a : α} {m' : Machine σ} (hrun : exec engine fuel procedure m = (.ok (.ok a), m'))
    (hm : holds m) : holds m' := by
  have hspans : Spans fun halt m (_ : List (Mark σ)) m' => halt = none → holds m → holds m' :=
    ⟨fun _ _ hm => hm, fun hfirst hsecond hhalt hm => hsecond hhalt (hfirst rfl hm)⟩
  -- along the steps that were carried out, each of which met its demand
  have hall : Spanned (fun halt m _ m' => halt = none → holds m → holds m') engine fuel procedure
      m := by
    refine spanned_of_asked hspans fun step middle hmem hhalt hmiddle => ?_
    rcases hpart : Machine.perform engine fuel step middle with ⟨halt | reply, last⟩
    · rw [hpart] at hhalt
      exact nomatch hhalt
    · refine hstep ⟨step, middle⟩ reply last (h.asks _ hmem) ?_ hpart hmiddle
      -- a step that demands a failure would have made the procedure fail
      cases hverdict : verdict ⟨step, middle⟩ reply with
      | none => rfl
      | some e =>
        obtain ⟨before, after, hsplit⟩ := List.append_of_mem hmem
        obtain ⟨last', hfails⟩ := (h.heeds before _ after reply last e hsplit hpart hverdict).1
        rw [hrun] at hfails
        exact nomatch (Prod.mk.inj hfails).1
  unfold Spanned at hall
  rw [hrun] at hall
  exact hall rfl hm

/-- What comes behind an observation has seen the machine as it is. -/
theorem conducts_observe_bind {f : Machine σ → Procedure σ ε β}
    (hgood : good ⟨.request (.access .observe), m⟩)
    (hquiet : ∀ reply, verdict ⟨.request (.access .observe), m⟩ reply = none)
    (hf : Conducts good verdict engine fuel (f m) m) :
    Conducts good verdict engine fuel (observe >>= f) m := by
  refine conducts_bind (conducts_access hgood hquiet) fun seen middle hrun => ?_
  have happly : (m, m) = (seen, middle) := exec_access_ok hrun
  obtain ⟨rfl, rfl⟩ := Prod.mk.inj happly
  exact hf

end Procedure

-- ---------------------------------------------------------------------------
-- The steps of a start
-- ---------------------------------------------------------------------------

/-- The classes that count as being initialised until the library has set itself up. -/
def CoreName.claimed : List String := [system, securityDebug]

/-- The classes that the first nine steps of a start ask for. -/
def CoreName.foundation : List String := [classObject, object, string, cloneable, serializable,
  nullPointerException, arrayIndexOutOfBoundsException, classNotFoundException, internalError,
  inputOutputException, thread, threadGroup, system, inputStream, printStream, securityManager,
  securityDebug]

/-- The classes that a start asks for, whatever else is there. -/
def CoreName.required : List String :=
  foundation ++ [charset, utf8, OverrideModule.streamEncoder.className]

/-- The steps that a start asks for itself. -/
def Asked.InBoot (part : Asked σ) : Prop :=
  match part.step with
  | .request (.access (.setState type state)) =>
    (state = .beingInitialized ∨ state = .fullyInitialized) ∧
      part.machine.className type ∈ CoreName.claimed
  | .request (.access (.transition _ _ _)) | .request (.access (.setClassPath _))
  | .request (.access (.loadBytes _)) => False
  | .request (.invoke _ method _) => method.key.Plain
  | .request (.access _) | .request (.initClass _ _) | .upkeep _ => True
  | _ => False

/-- The failure of a start that a reply stands for. -/
def Asked.verdict : (part : Asked σ) → part.step.Reply → Option Fatal
  | ⟨.request (.initClass _ type), m⟩, .error cause => some (.initialization (m.className type) cause)
  | ⟨.request (.invoke _ method _), m⟩, .error cause =>
    some (.invocation (m.className method.declaring) method.key cause)
  | ⟨.request (.access (.load name)), m⟩, .ok none =>
    if name ∈ CoreName.required ∨ m.delegateClass ≠ some name then some (.classNotFound name)
    else none
  | _, _ => none

namespace Procedure

/-- A procedure that is part of a start. -/
abbrev ConductsBoot (engine : Engine σ) (fuel : Nat) (procedure : Procedure σ Fatal α)
    (m : Machine σ) : Prop :=
  Conducts Asked.InBoot Asked.verdict engine fuel procedure m

variable {engine : Engine σ} {fuel : Nat} {m m' : Machine σ} {thread : ThreadId} {type : ClassId}
  {name : String}

theorem conducts_boot_observe {f : Machine σ → Procedure σ Fatal β}
    (hf : ConductsBoot engine fuel (f m) m) : ConductsBoot engine fuel (observe >>= f) m :=
  conducts_observe_bind trivial (fun _ => rfl) hf

/-- An access that is blamed on something if it fails. -/
theorem conducts_orFatal {access : Access σ} {blame : Throwable → Fatal}
    {procedure : Procedure σ Throwable α}
    (hasked : asked engine fuel procedure m = [⟨.request (.access access), m⟩])
    (hgood : Asked.InBoot ⟨.request (.access access), m⟩)
    (hquiet : ∀ reply, Asked.verdict ⟨.request (.access access), m⟩ reply = none) :
    ConductsBoot engine fuel (orFatal blame procedure) m := by
  refine conducts_of_step ((asked_orFatal blame procedure).trans hasked) hgood
    fun reply m' e _ hverdict => ?_
  rw [hquiet] at hverdict
  exact nomatch hverdict

/-- A class that was not found ends the start. -/
theorem conducts_loadRequired (name : String) (m : Machine σ) :
    ConductsBoot engine fuel (loadRequired name) m := by
  have hasked : asked engine fuel (loadRequired name : Procedure σ Fatal ClassId) m =
      [⟨.request (.access (.load name)), m⟩] := by
    have hload : asked engine fuel (orFatal (.load name) (load name) : Procedure σ Fatal _) m =
        [⟨.request (.access (.load name)), m⟩] := (asked_orFatal _ _).trans (asked_call _)
    rw [loadRequired, asked_bind, hload]
    split
    · rename_i found _ _
      cases found <;> rfl
    · rfl
    · rfl
  refine conducts_of_step hasked trivial fun reply m' e hrun hverdict => ?_
  -- the one reply that demands a failure without being one: the class is not there
  match reply, hrun, hverdict with
  | .ok none, hrun, hverdict =>
    have hload : exec engine fuel (orFatal (.load name) (load name) : Procedure σ Fatal _) m =
        (.ok (.ok none), m') := exec_orFatal_eq_ok.mpr ((exec_load name).trans hrun)
    have he : Fatal.classNotFound name = e := by
      simp only [Asked.verdict] at hverdict
      split at hverdict
      · exact Option.some.inj hverdict
      · exact nomatch hverdict
    exact ⟨m', he ▸ exec_bind_of_ok hload⟩

/-- A class whose initialisation fails ends the start. -/
theorem conducts_initialized (thread : ThreadId) (type : ClassId) (m : Machine σ) :
    ConductsBoot engine fuel (initialized thread type) m := by
  refine conducts_boot_observe (conducts_of_step ((asked_orFatal _ _).trans
    (asked_initClass thread type)) trivial fun reply m' e hrun hverdict => ?_)
  match reply, hrun, hverdict with
  | .error cause, hrun, hverdict =>
    obtain rfl := Option.some.inj hverdict
    exact ⟨m', exec_orFatal_eq_error.mpr ⟨cause, rfl, (exec_initClass thread type).trans hrun⟩⟩

theorem conducts_require (thread : ThreadId) (name : String) (m : Machine σ) :
    ConductsBoot engine fuel (require thread name) m :=
  conducts_bind (conducts_loadRequired name m) fun type loaded _ =>
    conducts_bind (conducts_initialized thread type loaded) fun _ _ _ => conducts_pure type

theorem conducts_newObject (type : ClassId) (m : Machine σ) :
    ConductsBoot engine fuel (newObject type) m :=
  conducts_boot_observe (conducts_orFatal (asked_call _) trivial fun _ => rfl)

theorem conducts_setObjectField (object : ObjectId) (key : FieldKey) (value : Value)
    (m : Machine σ) : ConductsBoot engine fuel (setObjectField object key value) m :=
  conducts_boot_observe (conducts_orFatal (asked_call _) trivial fun _ => rfl)

theorem conducts_internRequired (text : String) (m : Machine σ) :
    ConductsBoot engine fuel (internRequired text) m :=
  conducts_orFatal (asked_call _) trivial fun _ => rfl

theorem conducts_declared (kind : MethodKind) (type : ClassId) (key : MethodKey) (m : Machine σ) :
    ConductsBoot engine fuel (declared kind type key) m := by
  refine conducts_boot_observe ?_
  cases m.table.method? kind type key with
  | none => exact conducts_throw _
  | some method => exact conducts_pure method

/-- A method that fails ends the start. -/
theorem conducts_invokeRequired (thread : ThreadId) {method : MethodRef} (hplain : method.key.Plain)
    (arguments : List Value) (m : Machine σ) :
    ConductsBoot engine fuel (invokeRequired thread method arguments) m := by
  refine conducts_boot_observe (conducts_bind (conducts_of_step ((asked_orFatal _ _).trans
    (asked_invoke thread method arguments)) hplain fun reply m' e hrun hverdict => ?_)
    fun _ _ _ => conducts_pure ())
  match reply, hrun, hverdict with
  | .error cause, hrun, hverdict =>
    obtain rfl := Option.some.inj hverdict
    exact ⟨m', exec_orFatal_eq_error.mpr
      ⟨cause, rfl, (exec_invoke thread method arguments).trans hrun⟩⟩

/-- A method that was found has the key that it was looked up by. -/
theorem plain_of_declared {kind : MethodKind} {key : MethodKey} {method : MethodRef}
    (hplain : key.Plain)
    (h : exec engine fuel (declared kind type key) m = (.ok (.ok method), m')) :
    method.key.Plain :=
  (ClassTable.eq_of_method? (declared_ok h).2).2 ▸ hplain

theorem conducts_callDeclared {kind : MethodKind} {key : MethodKey} (hplain : key.Plain)
    {arguments : Procedure σ Fatal (List Value)}
    (harguments : ∀ m, ConductsBoot engine fuel arguments m) (m : Machine σ) :
    ConductsBoot engine fuel (callDeclared thread kind type key arguments) m :=
  conducts_bind (conducts_declared kind type key m) fun _ middle hdeclared =>
    conducts_bind (harguments middle) fun values last _ =>
      conducts_invokeRequired thread (plain_of_declared hplain hdeclared) values last

theorem conducts_tagAll (role : ClassRole) (types : List ClassId) (m : Machine σ) :
    ConductsBoot engine fuel (tagAll role types) m := by
  induction types generalizing m with
  | nil => exact conducts_pure ()
  | cons type types ih =>
    exact conducts_bind (conducts_access trivial fun _ => rfl) fun _ middle _ => ih middle

theorem conducts_findWellKnown (thread : ThreadId) (m : Machine σ) :
    ConductsBoot engine fuel (findWellKnown thread) m := by
  have hrequire : ∀ name (m : Machine σ), ConductsBoot engine fuel (require thread name) m :=
    conducts_require thread
  refine conducts_bind (hrequire _ _) fun _ _ _ => conducts_bind (hrequire _ _) fun _ _ _ =>
    conducts_bind (hrequire _ _) fun _ _ _ =>
    conducts_bind (conducts_orFatal (asked_call _) trivial fun _ => rfl) fun _ _ _ => ?_
  exact conducts_bind (hrequire _ _) fun _ _ _ => conducts_bind (hrequire _ _) fun _ _ _ =>
    conducts_bind (hrequire _ _) fun _ _ _ => conducts_bind (hrequire _ _) fun _ _ _ =>
    conducts_bind (hrequire _ _) fun _ _ _ => conducts_bind (hrequire _ _) fun _ _ _ =>
    conducts_bind (hrequire _ _) fun _ _ _ => conducts_pure _

theorem conducts_captureWellKnown (thread : ThreadId) (m : Machine σ) :
    ConductsBoot engine fuel (captureWellKnown thread) m := by
  refine conducts_bind (conducts_findWellKnown thread m) fun known _ _ =>
    conducts_bind (conducts_tagAll _ _ _) fun _ _ _ =>
    conducts_bind (conducts_tagAll _ _ _) fun _ _ _ =>
    conducts_bind (conducts_access trivial fun _ => rfl) fun _ _ _ =>
    conducts_bind (conducts_upkeep trivial fun _ => rfl) fun captured _ _ => ?_
  split
  · exact conducts_throw _
  · exact conducts_pure ()

theorem conducts_newPeer (thread : ThreadId) (type : ClassId) (m : Machine σ) :
    ConductsBoot engine fuel (newPeer thread type) m :=
  conducts_bind (conducts_newObject type m) fun peer _ _ => conducts_boot_observe
    (conducts_bind (conducts_setObjectField _ _ _ _) fun _ _ _ =>
      conducts_bind (conducts_setObjectField _ _ _ _) fun _ _ _ =>
      conducts_bind (conducts_orFatal (asked_call _) trivial fun _ => rfl) fun _ _ _ =>
      conducts_pure peer)

theorem conducts_newMainThread (thread : ThreadId) (m : Machine σ) :
    ConductsBoot engine fuel (newMainThread thread) m :=
  conducts_bind (conducts_require thread _ m) fun _ _ _ =>
    conducts_bind (conducts_require thread _ _) fun _ _ _ =>
    conducts_bind (conducts_newPeer thread _ _) fun _ _ _ =>
    conducts_bind (conducts_newObject _ _) fun _ _ _ =>
    conducts_bind (conducts_callDeclared (.of_name (by decide)) (fun _ => conducts_pure _) _)
      fun _ _ _ =>
    conducts_bind (conducts_newObject _ _) fun _ _ _ =>
    conducts_bind (conducts_setObjectField _ _ _ _) fun _ _ _ => conducts_pure _

theorem conducts_constructMainGroup (thread : ThreadId) (main : MainThread) (m : Machine σ) :
    ConductsBoot engine fuel (constructMainGroup thread main) m :=
  conducts_callDeclared (.of_name (by decide))
    (fun m => conducts_bind (conducts_internRequired _ m) fun _ _ _ => conducts_pure _) m

theorem conducts_constructMainThread (thread : ThreadId) (main : MainThread) (m : Machine σ) :
    ConductsBoot engine fuel (constructMainThread thread main) m :=
  conducts_callDeclared (.of_name (by decide))
    (fun m => conducts_bind (conducts_internRequired _ m) fun _ _ _ => conducts_pure _) m

theorem conducts_checkDeclared (type : ClassId) (methods : List (MethodKey × Override))
    (m : Machine σ) : ConductsBoot engine fuel (checkDeclared type methods) m := by
  induction methods generalizing m with
  | nil => exact conducts_pure ()
  | cons entry rest ih =>
    exact conducts_bind (conducts_declared .any type entry.1 m) fun _ middle _ => ih middle

theorem conducts_installModules (modules : List OverrideModule) (m : Machine σ) :
    ConductsBoot engine fuel (installModules modules) m := by
  induction modules generalizing m with
  | nil => exact conducts_pure ()
  | cons entry rest ih =>
    exact conducts_bind (conducts_loadRequired _ m) fun type _ _ =>
      conducts_bind (conducts_checkDeclared type _ _) fun _ _ _ =>
      conducts_bind (conducts_upkeep trivial fun _ => rfl) fun _ last _ => ih last

theorem conducts_applyOverrides (thread : ThreadId) (m : Machine σ) :
    ConductsBoot engine fuel (applyOverrides thread) m := by
  refine conducts_bind (conducts_require thread _ m) fun _ _ _ =>
    conducts_bind (conducts_require thread _ _) fun _ _ _ =>
    conducts_bind (conducts_newObject _ _) fun _ _ _ =>
    conducts_bind (conducts_access trivial fun _ => rfl) fun _ _ _ =>
    conducts_bind (conducts_upkeep trivial fun _ => rfl) fun set _ _ => ?_
  split
  · exact conducts_throw _
  · exact conducts_installModules _ _

-- ---------------------------------------------------------------------------
-- The claimed classes
-- ---------------------------------------------------------------------------

/-- A class that has been found is found as long as anything runs. -/
theorem find?_of_exec {procedure : Procedure σ ε α} {r : Except Halt (Except ε α)}
    (h : exec engine fuel procedure m = (r, m')) (hfind : m.table.find? name = some type) :
    m'.table.find? name = some type := by
  have hkeeps := keeps_exec engine fuel procedure m
  rw [h] at hkeeps
  exact hkeeps.find? hfind

theorem conducts_setState {state : ClassState}
    (hstate : state = .beingInitialized ∨ state = .fullyInitialized)
    (hname : name ∈ CoreName.claimed) (hfind : m.table.find? name = some type) :
    ConductsBoot engine fuel (Procedure.access (.setState type state)) m := by
  refine conducts_access ⟨hstate, ?_⟩ fun _ => rfl
  rwa [Machine.className, ClassTable.nameOf_of_find? hfind]

theorem conducts_claimSystem (thread : ThreadId) (m : Machine σ) :
    ConductsBoot engine fuel (claimSystem thread) m := by
  refine conducts_bind (conducts_loadRequired _ m) fun type loaded hload => ?_
  have hfind := (loadRequired_ok hload).2
  refine conducts_bind (conducts_access trivial fun _ => rfl) fun _ tagged htag => ?_
  exact conducts_bind
    (conducts_setState (.inl rfl) List.mem_cons_self (find?_of_exec htag hfind)) fun _ _ _ =>
    conducts_bind (conducts_require thread _ _) fun _ _ _ =>
    conducts_bind (conducts_require thread _ _) fun _ _ _ =>
    conducts_bind (conducts_require thread _ _) fun _ _ _ => conducts_pure type

theorem find?_claimSystem (h : exec engine fuel (claimSystem thread) m = (.ok (.ok type), m')) :
    m'.table.find? CoreName.system = some type := by
  obtain ⟨found, loaded, hload, h⟩ := exec_bind_ok h
  have hlast := find?_of_exec h (loadRequired_ok hload).2
  obtain ⟨_, _, -, h⟩ := exec_bind_ok h
  obtain ⟨_, _, -, h⟩ := exec_bind_ok h
  obtain ⟨_, _, -, h⟩ := exec_bind_ok h
  obtain ⟨_, _, -, h⟩ := exec_bind_ok h
  obtain ⟨_, _, -, h⟩ := exec_bind_ok h
  obtain ⟨rfl, -⟩ := pure_ok h
  exact hlast

theorem conducts_layFoundation (thread : ThreadId) (m : Machine σ) :
    ConductsBoot engine fuel (layFoundation thread) m := by
  refine conducts_bind (conducts_captureWellKnown thread m) fun _ _ _ =>
    conducts_bind (conducts_newMainThread thread _) fun main _ _ =>
    conducts_bind (conducts_claimSystem thread _) fun _ _ _ =>
    conducts_bind (conducts_constructMainGroup thread main _) fun _ _ _ =>
    conducts_bind (conducts_loadRequired _ _) fun securityDebug loaded hload => ?_
  have hfind := (loadRequired_ok hload).2
  exact conducts_bind
    (conducts_setState (.inl rfl) (List.mem_cons_of_mem _ List.mem_cons_self) hfind) fun _ _ _ =>
    conducts_bind (conducts_constructMainThread thread main _) fun _ _ _ => conducts_pure _

/-- The classes that a foundation claims are the two of these names. -/
theorem find?_layFoundation {claimed : Claimed}
    (h : exec engine fuel (layFoundation thread) m = (.ok (.ok claimed), m')) :
    m'.table.find? CoreName.system = some claimed.system ∧
      m'.table.find? CoreName.securityDebug = some claimed.securityDebug := by
  obtain ⟨_, _, -, h⟩ := exec_bind_ok h
  obtain ⟨_, _, -, h⟩ := exec_bind_ok h
  obtain ⟨system, _, hsystem, h⟩ := exec_bind_ok h
  have hfirst := find?_of_exec h (find?_claimSystem hsystem)
  obtain ⟨_, _, -, h⟩ := exec_bind_ok h
  obtain ⟨securityDebug, _, hdebug, h⟩ := exec_bind_ok h
  have hsecond := find?_of_exec h (loadRequired_ok hdebug).2
  obtain ⟨_, _, -, h⟩ := exec_bind_ok h
  obtain ⟨_, _, -, h⟩ := exec_bind_ok h
  obtain ⟨rfl, -⟩ := pure_ok h
  exact ⟨hfirst, hsecond⟩

theorem conducts_finishLibrary {claimed : Claimed}
    (hsystem : m.table.find? CoreName.system = some claimed.system)
    (hdebug : m.table.find? CoreName.securityDebug = some claimed.securityDebug) :
    ConductsBoot engine fuel (finishLibrary thread claimed) m := by
  refine conducts_bind (conducts_applyOverrides thread m) fun _ applied happly =>
    conducts_bind (conducts_callDeclared (.of_name (by decide)) (fun _ => conducts_pure _) applied)
      fun _ called hcall => ?_
  have hsystem' := find?_of_exec hcall (find?_of_exec happly hsystem)
  have hdebug' := find?_of_exec hcall (find?_of_exec happly hdebug)
  exact conducts_bind (conducts_setState (.inr rfl) List.mem_cons_self hsystem') fun _ _ hset =>
    conducts_setState (.inr rfl) (List.mem_cons_of_mem _ List.mem_cons_self)
      (find?_of_exec hset hdebug')

-- ---------------------------------------------------------------------------
-- The required classes
-- ---------------------------------------------------------------------------

/-- Classes of these names are found once the procedure has succeeded. -/
def Finds (names : List String) (procedure : Procedure σ ε α) : Prop :=
  ∀ engine fuel m a m', exec engine fuel procedure m = (.ok (.ok a), m') →
    ∀ name ∈ names, ∃ type, m'.table.find? name = some type

theorem finds_nil (procedure : Procedure σ ε α) : Finds [] procedure :=
  fun _ _ _ _ _ _ _ hmem => absurd hmem List.not_mem_nil

theorem finds_bind {names names' : List String} {x : Procedure σ ε α} {f : α → Procedure σ ε β}
    (hx : Finds names x) (hf : ∀ a, Finds names' (f a)) : Finds (names ++ names') (x >>= f) := by
  intro engine fuel m b m' h name hmem
  obtain ⟨a, middle, hfirst, hrest⟩ := exec_bind_ok h
  rcases List.mem_append.mp hmem with hmem | hmem
  · obtain ⟨type, hfind⟩ := hx engine fuel m a middle hfirst name hmem
    exact ⟨type, find?_of_exec hrest hfind⟩
  · exact hf a engine fuel middle b m' hrest name hmem

/-- A step that finds a class. -/
theorem finds_cons {names : List String} {x : Procedure σ ε α} {f : α → Procedure σ ε β}
    (hx : Finds [name] x) (hf : ∀ a, Finds names (f a)) : Finds (name :: names) (x >>= f) :=
  finds_bind hx hf

/-- A step after which as much is missing as before. -/
theorem finds_after {names : List String} {x : Procedure σ ε α} {f : α → Procedure σ ε β}
    (hf : ∀ a, Finds names (f a)) : Finds names (x >>= f) :=
  finds_bind (finds_nil x) hf

/-- A step behind which nothing is missing. -/
theorem finds_before {names : List String} {x : Procedure σ ε α} {f : α → Procedure σ ε β}
    (hx : Finds names x) : Finds names (x >>= f) := by
  have h := finds_bind hx fun a => finds_nil (f a)
  rwa [List.append_nil] at h

theorem finds_loadRequired (name : String) :
    Finds [name] (loadRequired name : Procedure σ Fatal ClassId) := by
  intro engine fuel m type m' h other hmem
  obtain rfl := List.mem_singleton.mp hmem
  exact ⟨type, (loadRequired_ok h).2⟩

theorem finds_require (thread : ThreadId) (name : String) :
    Finds [name] (require thread name : Procedure σ Fatal ClassId) :=
  finds_before (finds_loadRequired name)

theorem finds_captureWellKnown (thread : ThreadId) :
    Finds [CoreName.classObject, CoreName.object, CoreName.string, CoreName.cloneable,
      CoreName.serializable, CoreName.nullPointerException,
      CoreName.arrayIndexOutOfBoundsException, CoreName.classNotFoundException,
      CoreName.internalError, CoreName.inputOutputException]
      (captureWellKnown thread : Procedure σ Fatal Unit) := by
  have hrequire := finds_require (σ := σ) thread
  exact finds_before (finds_cons (hrequire _) fun _ => finds_cons (hrequire _) fun _ =>
    finds_cons (hrequire _) fun _ => finds_after fun _ =>
    finds_cons (hrequire _) fun _ => finds_cons (hrequire _) fun _ =>
    finds_cons (hrequire _) fun _ => finds_cons (hrequire _) fun _ =>
    finds_cons (hrequire _) fun _ => finds_cons (hrequire _) fun _ =>
    finds_before (hrequire _))

theorem finds_newMainThread (thread : ThreadId) :
    Finds [CoreName.thread, CoreName.threadGroup]
      (newMainThread thread : Procedure σ Fatal MainThread) :=
  finds_cons (finds_require thread _) fun _ => finds_before (finds_require thread _)

theorem finds_claimSystem (thread : ThreadId) :
    Finds [CoreName.system, CoreName.inputStream, CoreName.printStream, CoreName.securityManager]
      (claimSystem thread : Procedure σ Fatal ClassId) :=
  finds_cons (finds_loadRequired _) fun _ => finds_after fun _ => finds_after fun _ =>
    finds_cons (finds_require thread _) fun _ => finds_cons (finds_require thread _) fun _ =>
    finds_before (finds_require thread _)

theorem finds_installModules (modules : List OverrideModule) :
    Finds (modules.map OverrideModule.className)
      (installModules modules : Procedure σ Fatal Unit) := by
  induction modules with
  | nil => exact finds_nil _
  | cons entry rest ih =>
    exact finds_cons (finds_loadRequired _) fun _ => finds_after fun _ => finds_after fun _ => ih

theorem finds_applyOverrides (thread : ThreadId) :
    Finds (CoreName.charset :: CoreName.utf8 :: OverrideModule.builtin.map OverrideModule.className)
      (applyOverrides thread : Procedure σ Fatal Unit) := by
  refine finds_cons (finds_require thread _) fun _ => finds_cons (finds_require thread _) fun _ =>
    finds_after fun _ => finds_after fun _ => finds_after fun set => ?_
  intro engine fuel m a m' h
  split at h
  · exact nomatch h
  · exact finds_installModules _ engine fuel m a m' h

theorem finds_layFoundation (thread : ThreadId) :
    Finds CoreName.foundation (layFoundation thread : Procedure σ Fatal Claimed) :=
  finds_bind (finds_captureWellKnown thread) fun _ =>
    finds_bind (finds_newMainThread thread) fun _ =>
    finds_bind (finds_claimSystem thread) fun _ => finds_after fun _ =>
    finds_before (finds_loadRequired _)

/-- Before the delegate is looked for, all required classes have been found. -/
theorem exists_find?_of_library {claimed : Claimed} {middle : Machine σ}
    (hfoundation : exec engine fuel (layFoundation thread) m = (.ok (.ok claimed), middle))
    (hlibrary : exec engine fuel (finishLibrary thread claimed) middle = (.ok (.ok ()), m')) :
    ∀ name ∈ CoreName.required, ∃ type, m'.table.find? name = some type := by
  intro name hname
  rcases List.mem_append.mp hname with hname | hname
  · obtain ⟨type, hfind⟩ :=
      finds_layFoundation thread engine fuel m claimed middle hfoundation name hname
    exact ⟨type, find?_of_exec hlibrary hfind⟩
  · have hfinds : Finds _ (finishLibrary thread claimed : Procedure σ Fatal Unit) :=
      finds_before (finds_applyOverrides thread)
    exact hfinds engine fuel middle () m' hlibrary name (List.mem_append_left [CoreName.system] hname)

/-- The class of the delegate need not be there, unless something else needs it. -/
theorem conducts_installDelegate (thread : ThreadId) (arguments : List String)
    (hfound : ∀ name ∈ CoreName.required, ∃ type, m.table.find? name = some type) :
    ConductsBoot engine fuel (installDelegate thread arguments) m := by
  refine conducts_boot_observe ?_
  cases hclass : m.delegateClass with
  | none => exact conducts_pure ()
  | some name =>
    have hload : ConductsBoot engine fuel (orFatal (.load name) (load name)) m := by
      refine conducts_of_step ((asked_orFatal _ _).trans (asked_call _)) trivial
        fun reply m' e hrun hverdict => ?_
      match reply, hrun, hverdict with
      | .ok none, hrun, hverdict =>
        simp only [Asked.verdict, hclass, ne_eq, not_true_eq_false, or_false] at hverdict
        split at hverdict
        · rename_i hname
          -- a required class that is the delegate class as well is there by now
          obtain ⟨type, hfind⟩ := hfound name hname
          have hload : exec engine fuel (load name) m = (.ok (.ok none), m') :=
            (exec_load name).trans hrun
          have hlast := find?_of_exec hload hfind
          rw [(load_ok hload).2.2 rfl] at hlast
          exact nomatch hlast
        · exact nomatch hverdict
    refine conducts_bind hload fun found middle _ => ?_
    cases found with
    | none => exact conducts_pure ()
    | some type =>
      exact conducts_bind (conducts_initialized thread type _) fun _ _ _ =>
        conducts_bind (conducts_newObject type _) fun _ _ _ =>
        conducts_bind (conducts_declared .any type _ _) fun _ _ hdeclared => conducts_boot_observe
        (conducts_bind (conducts_orFatal (asked_call _) trivial fun _ => rfl) fun _ _ _ =>
          conducts_bind (conducts_invokeRequired thread
            (plain_of_declared (.of_name (by decide)) hdeclared) _ _) fun _ _ _ =>
          conducts_orFatal (asked_call _) trivial fun _ => rfl)

theorem conducts_bootSequence (thread : ThreadId) (arguments : List String) (m : Machine σ) :
    ConductsBoot engine fuel (bootSequence thread arguments) m :=
  conducts_bind (conducts_layFoundation thread m) fun _ _ hrun =>
    conducts_bind (conducts_finishLibrary (find?_layFoundation hrun).1 (find?_layFoundation hrun).2)
      fun _ _ hlibrary =>
      conducts_installDelegate thread arguments (exists_find?_of_library hrun hlibrary)

/-- **A start.** It settles its state around the sequence, and passes on what the sequence failed
with. -/
theorem conducts_booting (thread : ThreadId) (arguments : List String) (m : Machine σ) :
    ConductsBoot engine fuel (booting thread arguments) m := by
  refine conducts_boot_observe ?_
  cases m.boot with
  | failed => exact conducts_throw _
  | booting => exact conducts_pure ()
  | booted => exact conducts_pure ()
  | notBooted =>
    -- a failure of the sequence is passed on, and nothing but a move of the state comes after it
    refine conducts_bind (conducts_upkeep trivial fun _ => rfl) fun _ begun _ =>
      conducts_outcome_bind (conducts_bootSequence thread arguments begun)
        (fun result middle _ => ?_) fun fatal middle hfuel _ => ?_
    · cases result with
      | ok _ => exact conducts_upkeep trivial fun _ => rfl
      | error fatal =>
        exact conducts_bind (conducts_upkeep trivial fun _ => rfl) fun _ _ _ => conducts_throw fatal
    · obtain ⟨fuel, rfl⟩ := Nat.exists_eq_succ_of_ne_zero (Nat.ne_of_gt hfuel)
      refine ⟨⟨_, rfl⟩, fun other hmem => ?_⟩
      rcases mem_asked_bind.mp hmem with hmem | ⟨_, _, -, hmem⟩
      · rw [asked_upkeep] at hmem
        rw [List.mem_singleton.mp hmem]
        exact trivial
      · exact absurd hmem List.not_mem_nil

end Procedure

end ClassHost
