import ClassHost.Proofs.Loader.SuperChain
import ClassHost.Proofs.Machine.Evolution
import ClassHost.Proofs.Machine.Fuel
import ClassHost.Proofs.Machine.SuperFirst

/-!
# Engines that keep to themselves

An engine is `Aloof` if its calls return nothing and ask for nothing but a look at the machine and
its own memory. With such an engine an initialisation depends on the class path alone: it cannot
fail in any other way than by a super class that does not load.

* If super classes load, initialising a class succeeds (`Procedure.achieves_initClass`). The proof
  is an induction on `Finder.SupersLoad`; a name that has been met is one that some attempt further
  out has claimed.
* If initialising a class succeeds, the super classes of all classes that it initialised are there
  and claimed (`advances_initClass`). The proof is an induction on the nesting of steps.

Both rest on the table being faithful to the class path (`Machine.Faithful`).
-/

namespace ClassHost

variable {σ ε α : Type} {engine : Engine σ} {fuel : Nat} {m m' m'' : Machine σ} {thread : ThreadId}
  {type : ClassId} {finder : Finder} {name : String} {seen except : List String}

-- ---------------------------------------------------------------------------
-- Calls
-- ---------------------------------------------------------------------------

/-- A request that changes nothing but the memory of the engine. -/
def Request.Private : Request σ → Prop
  | .access .observe | .access (.remember _) => True
  | _ => False

/-- A call that makes private requests and returns nothing. -/
def Program.Aloof : Program (Request σ) Request.Reply (Except Throwable (Option Value)) → Prop
  | .done result => result = .ok none
  | .ask request next => request.Private ∧ ∀ reply, (next reply).Aloof

/-- Every call returns nothing and leaves everything alone. -/
def Engine.Aloof (engine : Engine σ) : Prop := ∀ call, (engine.respond call).Aloof

theorem Program.Aloof.restrained
    {p : Program (Request σ) Request.Reply (Except Throwable (Option Value))} (h : p.Aloof) :
    p.Only Request.Restrained := by
  induction p with
  | done result => exact trivial
  | ask request next ih =>
    refine ⟨?_, fun reply => ih reply (h.2 reply)⟩
    have hprivate := h.1
    cases request with
    | access access => cases access <;> first | exact trivial | exact hprivate.elim
    | _ => exact hprivate.elim

namespace Machine

/-- Nothing but the journal and the memory of the engine has changed. -/
def OnlyNotes (m m' : Machine σ) : Prop := ∃ journal memory, m' = { m with journal, memory }

/-- Nothing but the classes, the journal and the memory of the engine has changed. -/
def OnlyClasses (m m' : Machine σ) : Prop :=
  ∃ loader journal memory, m' = { m with loader, journal, memory }

theorem OnlyNotes.refl (m : Machine σ) : OnlyNotes m m := ⟨m.journal, m.memory, rfl⟩

theorem OnlyNotes.classes (h : OnlyNotes m m') : OnlyClasses m m' := by
  obtain ⟨journal, memory, rfl⟩ := h
  exact ⟨m.loader, journal, memory, rfl⟩

theorem OnlyClasses.refl (m : Machine σ) : OnlyClasses m m := (OnlyNotes.refl m).classes

theorem OnlyClasses.trans (h : OnlyClasses m m') (h' : OnlyClasses m' m'') : OnlyClasses m m'' := by
  obtain ⟨_, _, _, rfl⟩ := h
  obtain ⟨loader, journal, memory, rfl⟩ := h'
  exact ⟨loader, journal, memory, rfl⟩

/-- An aloof call, with fuel for its requests. -/
theorem run_of_aloof
    {p : Program (Request σ) Request.Reply (Except Throwable (Option Value))} (h : p.Aloof)
    (m : Machine σ) : ∃ memory, run engine (fuel + 1) p m = (.ok (.ok none), { m with memory }) := by
  induction p generalizing m with
  | done result =>
    obtain rfl : result = .ok none := h
    exact ⟨m.memory, rfl⟩
  | ask request next ih =>
    obtain ⟨hprivate, hnext⟩ := h
    match request, next, ih, hprivate, hnext with
    | .access .observe, next, ih, _, hnext => exact ih m (hnext m) m
    | .access (.remember memory), next, ih, _, hnext =>
      obtain ⟨last, hrun⟩ := ih () (hnext ()) { m with memory }
      exact ⟨last, hrun⟩

/-- An aloof engine is called, and that is all that happens. -/
theorem perform_invoke_of_aloof (haloof : engine.Aloof) {method : MethodRef}
    (hplain : method.key.Plain) (arguments : List Value) (m : Machine σ) :
    ∃ m', perform engine (fuel + 3) (.request (.invoke thread method arguments)) m =
      (.ok (.ok none), m') ∧ OnlyNotes m m' := by
  let called := m.note (.called ⟨thread, method, arguments⟩)
  obtain ⟨memory, hcall⟩ : ∃ memory, perform engine (fuel + 2)
      (.callEngine ⟨thread, method, arguments⟩) called = (.ok (.ok none), { called with memory }) :=
    run_of_aloof (haloof ⟨thread, method, arguments⟩) called
  refine ⟨({ called with memory } : Machine σ).note (.returned true), ?_, ⟨_, memory, rfl⟩⟩
  change (Procedure.invocation thread method arguments).exec engine (fuel + 2) m = _
  rw [Procedure.exec_invocation, Overrides.find?_of_plain hplain]
  dsimp only
  rw [hcall]

end Machine

namespace Procedure

theorem achieves_invoke (haloof : engine.Aloof) {method : MethodRef} (hplain : method.key.Plain)
    (arguments : List Value) (m : Machine σ) :
    (invoke thread method arguments).Achieves engine m fun _ m' => m.OnlyNotes m' := by
  obtain ⟨m', hrun, hnotes⟩ : ∃ m', Machine.perform engine 3
      (.request (.invoke thread method arguments)) m = (.ok (.ok none), m') ∧ m.OnlyNotes m' :=
    Machine.perform_invoke_of_aloof haloof hplain arguments m
  exact ⟨3, none, m', (exec_invoke thread method arguments).trans hrun, hnotes⟩

/-- What is achieved is what any run comes to that is not exhausted. -/
theorem Achieves.of_exec {procedure : Procedure σ ε α} {post : α → Machine σ → Prop}
    (h : procedure.Achieves engine m post) {result : Except ε α}
    (hrun : procedure.exec engine fuel m = (.ok result, m')) : ∃ a, result = .ok a ∧ post a m' := by
  obtain ⟨fuel', a, last, hrun', hlast⟩ := h
  have hmore := exec_ok_of_le (Nat.le_max_left fuel fuel') hrun
  rw [exec_ok_of_le (Nat.le_max_right fuel fuel') hrun'] at hmore
  obtain ⟨hresult, rfl⟩ := Prod.mk.inj hmore
  exact ⟨a, (Except.ok.inj hresult).symm, hlast⟩

/-- Initialisers of classes do nothing. -/
theorem achieves_invokeInitializer (haloof : engine.Aloof) (m : Machine σ) :
    (invokeInitializer thread type).Achieves engine m fun _ m' => m.OnlyNotes m' := by
  refine achieves_observe_bind ?_
  cases hmethod : m.table.method? .static type initializerKey with
  | none => exact achieves_pure (.refl m)
  | some method =>
    have hplain : method.key.Plain :=
      (ClassTable.eq_of_method? hmethod).2 ▸ MethodKey.Plain.of_name (by decide)
    refine achieves_bind (achieves_invoke haloof hplain [] _) ?_
    rintro _ _ ⟨journal, memory, rfl⟩
    exact achieves_pure ⟨journal, memory, rfl⟩

end Procedure

-- ---------------------------------------------------------------------------
-- Tables that are faithful to the class path
-- ---------------------------------------------------------------------------

namespace Machine

/-- All classes come from the class path, and every one that is there has been loaded. -/
structure Faithful (finder : Finder) (m : Machine σ) : Prop where
  classPath : m.classPath = finder
  wellFormed : m.table.WellFormed
  settled : Settled finder m.table
  present : ∀ type c, m.table.get? type = some c → c.state ≠ .notLoaded

theorem Faithful.of_eq (h : m.Faithful finder) (hpath : m'.classPath = m.classPath)
    (htable : m'.table = m.table) : m'.Faithful finder where
  classPath := hpath.trans h.classPath
  wellFormed := htable ▸ h.wellFormed
  settled := htable ▸ h.settled
  present := htable ▸ h.present

theorem Faithful.modify (h : m.Faithful finder) (change : LoadedClass → LoadedClass)
    (hname : ∀ c, (change c).name = c.name) (hkind : ∀ c, (change c).kind = c.kind)
    (hstate : ∀ c, c.state ≠ .notLoaded → (change c).state ≠ .notLoaded) (type : ClassId) :
    (m.withTable (m.table.modify type change)).Faithful finder where
  classPath := h.classPath
  wellFormed := h.wellFormed.modify hname hkind type
  settled := h.settled.modify hname hkind type
  present other c hget := by
    change (m.table.modify type change).get? other = some c at hget
    rw [ClassTable.get?_modify] at hget
    split at hget
    · obtain ⟨old, hold, rfl⟩ := Option.map_eq_some_iff.mp hget
      exact hstate old (h.present other old hold)
    · exact h.present other c hget

theorem Faithful.setState (h : m.Faithful finder) {state : ClassState} (hstate : state ≠ .notLoaded)
    (type : ClassId) : (m.withTable (m.table.setState type state)).Faithful finder :=
  h.modify (fun c => { c with state }) (fun _ => rfl) (fun _ => rfl) (fun _ _ => hstate) type

theorem Faithful.begin (h : m.Faithful finder) (type : ClassId) : (m.begin type).Faithful finder := by
  have hstate : ClassState.beingInitialized ≠ .notLoaded := nofun
  exact (h.setState hstate type).of_eq rfl rfl

theorem Faithful.claimed_of_ne (h : m.Faithful finder) {c : LoadedClass}
    (hget : m.table.get? type = some c) (hne : m.table.stateOf type ≠ .loaded) : m.Claimed type := by
  have hpresent := h.present type c hget
  rw [← ClassTable.stateOf_of_get? hget] at hpresent
  exact Procedure.claimed_of_ne hpresent hne

theorem Faithful.load (h : m.Faithful finder) (name : String) :
    (Machine.load name m).2.Faithful finder where
  classPath := h.classPath
  wellFormed := (Loader.spec_load m.classPath name m.loader _ _ rfl).grows.built.wellFormed
    h.wellFormed
  settled := by
    have hsettled := (Loader.outcome_eq_resolution h.wellFormed h.settled name).2
    change Settled finder (Loader.load m.classPath name m.loader).2.table
    rwa [h.classPath]
  present _ _ hget :=
    (Loader.spec_load m.classPath name m.loader _ _ rfl).grows.built.present h.present hget

/-- A name that a fresh loader can load can be loaded. -/
theorem Faithful.exists_load (h : m.Faithful finder) (hloaded : ∃ c, finder.loaded? name = some c) :
    ∃ type, Machine.load name m = (.ok (some type), (Machine.load name m).2) ∧
      (Machine.load name m).2.table.find? name = some type := by
  obtain ⟨type, htype⟩ := (Loader.exists_load_iff h.wellFormed h.settled name).mpr
    (Finder.exists_loaded?_iff.mp hloaded)
  rw [← h.classPath] at htype
  exact ⟨type, Prod.ext htype rfl,
    (Loader.spec_load m.classPath name m.loader _ _ rfl).found type htype⟩

end Machine

-- ---------------------------------------------------------------------------
-- Initialisations that succeed
-- ---------------------------------------------------------------------------

/-- A run that keeps what is known of the classes: they come from the class path, and the super
classes of initialised ones are claimed. -/
structure Advances (finder : Finder) (except : List String) (m m' : Machine σ) : Prop where
  faithful : m.Faithful finder → m'.Faithful finder
  supers : m.SupersClaimed except → m'.SupersClaimed except
  claims : m.KeepsClaims m'

namespace Advances

theorem trans (h : Advances finder except m m') (h' : Advances finder except m' m'') :
    Advances finder except m m'' where
  faithful hm := h'.faithful (h.faithful hm)
  supers hm := h'.supers (h.supers hm)
  claims := h.claims.trans h'.claims

/-- A step that moves no class, and adds none but those of the class path. -/
theorem of_step (hpath : m'.classPath = m.classPath) (h : m.TableStep m'.table) :
    Advances finder except m m' where
  faithful hm := by
    generalize htable : m'.table = table at h
    cases h with
    | same => exact hm.of_eq hpath htable
    | load name => exact (hm.load name).of_eq hpath htable
    | modify type change hname hkind hstate =>
      exact (hm.modify change hname hkind (fun c hc => hstate c ▸ hc) type).of_eq hpath htable
  supers hm := hm.unmoved h.unmoved
  claims := Machine.keepsClaims_of_unmoved h.unmoved

theorem of_eq (hpath : m'.classPath = m.classPath) (htable : m'.table = m.table) :
    Advances finder except m m' :=
  of_step hpath (htable ▸ .same)

theorem notes (h : m.OnlyNotes m') : Advances finder except m m' := by
  obtain ⟨_, _, rfl⟩ := h
  exact of_eq rfl rfl

theorem load (name : String) (m : Machine σ) :
    Advances finder except m (Machine.load name m).2 :=
  of_step rfl (.load name)

/-- A class may be claimed; if it is done, its super class has to be claimed, or it has none. -/
theorem setState {state : ClassState}
    (hstate : state = .beingInitialized ∨ state = .fullyInitialized)
    (hsuper : state = .fullyInitialized → ∀ c, m.table.get? type = some c → c.name ∉ except →
      c.isArray = false → m.SuperClaimed type) :
    Advances finder except m (m.withTable (m.table.setState type state)) where
  faithful hm := hm.setState (by rcases hstate with rfl | rfl <;> nofun) type
  supers hm := hm.setState hstate hsuper
  claims _ hclaimed := hclaimed.setState hstate

end Advances

/-- Before the initialiser of a class runs, its super class is initialised. -/
theorem advances_initializeSuper
    (ih : ∀ type {m m' : Machine σ}, Machine.perform engine fuel (.request (.initClass thread type)) m =
      (.ok (.ok ()), m') → Advances finder except m m')
    (h : (Procedure.initializeSuper thread type).exec engine fuel m = (.ok (.ok ()), m')) :
    Advances finder except m m' := by
  unfold Procedure.initializeSuper at h
  obtain ⟨seen, first, hobserve, h⟩ := Procedure.exec_bind_ok h
  have happly : (m, m) = (seen, first) := Procedure.exec_access_ok hobserve
  obtain ⟨rfl, rfl⟩ := Prod.mk.inj happly
  cases hsuper : (m.table.get? type).bind LoadedClass.superName? with
  | none =>
    rw [hsuper] at h
    obtain ⟨-, rfl⟩ := Prod.mk.inj h
    exact .of_eq rfl rfl
  | some superName =>
    rw [hsuper] at h
    obtain ⟨found, middle, hload, h⟩ := Procedure.exec_bind_ok h
    have happly : (Access.load superName).apply m = (.ok found, middle) :=
      Machine.apply_of_perform_access (Procedure.perform_of_exec hload)
    obtain ⟨-, rfl⟩ := Prod.mk.inj happly
    -- a super class that is not found fails the request, which is known to have succeeded
    cases found with
    | none => exact nomatch h
    | some superType =>
      exact (Advances.load superName m).trans
        (ih superType ((Procedure.exec_initClass thread superType).symm.trans h))

/-- **An initialisation that succeeds** leaves no initialised class whose super class is not
claimed. -/
theorem advances_initClass (haloof : engine.Aloof) (fuel : Nat) (type : ClassId) {m m' : Machine σ}
    (h : Machine.perform engine fuel (.request (.initClass thread type)) m = (.ok (.ok ()), m')) :
    Advances finder except m m' := by
  induction fuel generalizing type m m' with
  | zero => exact nomatch h
  | succ fuel ih =>
    rw [Machine.perform_initClass] at h
    cases fuel with
    | zero => exact nomatch h
    | succ fuel =>
      by_cases hloaded : m.table.stateOf type = .loaded
      -- a class that is not loaded is left as it is
      swap
      · obtain rfl := Procedure.eq_of_initialization_of_ne hloaded h
        exact .of_eq rfl rfl
      obtain ⟨c, hget⟩ := ClassTable.exists_get?_of_stateOf (by rw [hloaded]; decide)
      cases harray : ((m.table.get? type).map LoadedClass.isArray).getD false with
      | true =>
        rw [Procedure.exec_initialization_of_array hloaded harray] at h
        obtain ⟨-, rfl⟩ := Prod.mk.inj h
        refine .setState (.inr rfl) fun _ c' hget' _ hplain => ?_
        rw [hget', Option.map_some, Option.getD_some, hplain] at harray
        exact nomatch harray
      | false =>
        rw [Procedure.exec_initialization_of_loaded hloaded harray] at h
        rcases hrun : (Procedure.runInitializers thread type).exec engine (fuel + 1) (m.begin type) with
          ⟨halt | error | _, middle⟩
        · rw [hrun] at h
          exact nomatch h
        · rw [hrun] at h
          exact nomatch h
        · rw [hrun] at h
          obtain ⟨-, rfl⟩ := Prod.mk.inj h
          obtain ⟨_, ready, hsuper, hown⟩ := Procedure.exec_bind_ok hrun
          -- the class is claimed, its super class is initialised, and then it is done
          have hbegin : Advances finder except m (m.begin type) :=
            (Advances.setState (.inl rfl) nofun).trans (.of_eq rfl rfl)
          have hready := hbegin.trans (advances_initializeSuper ih hsuper)
          obtain ⟨_, -, journal, memory, rfl⟩ :=
            (Procedure.achieves_invokeInitializer haloof ready).of_exec hown
          have hbusy : (m.begin type).table.get? type = some { c with state := .beingInitialized } :=
            ClassTable.get?_setState_self hget
          have hclaimed := Procedure.superClaimed_of_initializeSuper hbusy hsuper
          exact hready.trans ((Advances.setState (.inr rfl) fun _ _ _ _ _ => hclaimed).trans
            (.of_eq rfl rfl))

-- ---------------------------------------------------------------------------
-- Initialisations that cannot fail
-- ---------------------------------------------------------------------------

namespace Procedure

variable (haloof : engine.Aloof)

/-- A class that is done or under way, or an array class, is not attempted. -/
theorem achieves_initClass_of_skipped {c : LoadedClass} (hm : m.Faithful finder)
    (hget : m.table.get? type = some c) (hskip : m.Claimed type ∨ c.isArray = true) :
    (initClass thread type).Achieves engine m fun _ m' => m.OnlyClasses m' := by
  by_cases hloaded : m.table.stateOf type = .loaded
  · have harray : ((m.table.get? type).map LoadedClass.isArray).getD false = true := by
      rw [hget]
      rcases hskip with hclaimed | harray
      · simp [Machine.Claimed, hloaded] at hclaimed
      · exact harray
    refine ⟨2, (), m.withTable (m.table.setState type .fullyInitialized), ?_, ⟨_, _, _, rfl⟩⟩
    rw [exec_initClass, Machine.perform_initClass]
    exact exec_initialization_of_array hloaded harray
  · refine ⟨2, (), m, ?_, .refl m⟩
    rw [exec_initClass, Machine.perform_initClass]
    exact exec_initialization_of_claimed (hm.claimed_of_ne hget hloaded)

include haloof

/-- An attempt succeeds if the super class gets initialised. -/
theorem achieves_initClass_of_super {c : LoadedClass} (hloaded : m.table.stateOf type = .loaded)
    (hget : m.table.get? type = some c) (harray : c.isArray = false)
    (hsuper : (initializeSuper thread type).Achieves engine (m.begin type) fun _ m' =>
      (m.begin type).OnlyClasses m') :
    (initClass thread type).Achieves engine m fun _ m' => m.OnlyClasses m' := by
  have hrun : (runInitializers thread type).Achieves engine (m.begin type) fun _ m' =>
      (m.begin type).OnlyClasses m' := by
    refine achieves_bind hsuper fun _ middle hmiddle => ?_
    exact (achieves_invokeInitializer haloof middle).mono fun _ _ hnotes =>
      hmiddle.trans hnotes.classes
  -- one level more than the initialisers need, and the class is finished
  obtain ⟨fuel, _, last, hrun, honly⟩ := hrun
  have harray' : ((m.table.get? type).map LoadedClass.isArray).getD false = false := by
    rw [hget, Option.map_some, Option.getD_some, harray]
  refine ⟨fuel + 2, (), last.finish type true, ?_, ?_⟩
  · rw [exec_initClass, Machine.perform_initClass, exec_initialization_of_loaded hloaded harray',
      exec_ok_of_le (Nat.le_succ fuel) hrun]
  · obtain ⟨_, _, _, rfl⟩ := honly
    exact ⟨_, _, _, rfl⟩

/-- **A class can be initialised** if its super classes load. Those that have been met on the way
are claimed by attempts further out, which ends the induction. -/
theorem achieves_initClass (h : finder.SupersLoad seen name) (hm : m.Faithful finder)
    (hfind : m.table.find? name = some type)
    (hseen : ∀ other ∈ seen, ∃ id, m.table.find? other = some id ∧ m.Claimed id) :
    (initClass thread type).Achieves engine m fun _ m' => m.OnlyClasses m' := by
  induction h generalizing m type with
  | @met seen name hmem =>
    -- met before, so claimed: there is nothing to do
    obtain ⟨id, hfind', hclaimed⟩ := hseen name hmem
    obtain rfl := Option.some.inj (hfind.symm.trans hfind')
    obtain ⟨c, hget, -⟩ := ClassTable.get?_of_find? hfind
    exact achieves_initClass_of_skipped hm hget (.inl hclaimed)
  | @array seen name d hd harray =>
    obtain ⟨c, hget, -⟩ := ClassTable.get?_of_find? hfind
    -- an array class on the class path is one here
    have hsame := LoadedClass.isArray_of_file?_eq (hm.settled.file?_eq hfind hget hd)
    exact achieves_initClass_of_skipped hm hget (.inr (hsame.trans harray))
  | @root seen name d hd hroot =>
    obtain ⟨c, hget, -⟩ := ClassTable.get?_of_find? hfind
    have hsame := LoadedClass.superName?_of_file?_eq (hm.settled.file?_eq hfind hget hd)
    -- without a super class only the own initialiser is left
    by_cases hloaded : m.table.stateOf type = .loaded
    swap
    · exact achieves_initClass_of_skipped hm hget (.inl (hm.claimed_of_ne hget hloaded))
    cases harray : c.isArray with
    | true => exact achieves_initClass_of_skipped hm hget (.inr harray)
    | false =>
      refine achieves_initClass_of_super haloof hloaded hget harray (achieves_observe_bind ?_)
      have hnone : ((m.begin type).table.get? type).bind LoadedClass.superName? = none := by
        change ((m.table.setState type .beingInitialized).get? type).bind _ = none
        rw [ClassTable.get?_setState_self hget]
        exact hsame.trans hroot
      rw [hnone]
      exact achieves_pure (.refl _)
  | @super seen name superName hsuper h ih =>
    obtain ⟨d, hd, hdarray, hdsuper⟩ := hsuper
    obtain ⟨c, hget, -⟩ := ClassTable.get?_of_find? hfind
    -- what the table says of the class is what its file says, its super class included
    have hfile := hm.settled.file?_eq hfind hget hd
    by_cases hloaded : m.table.stateOf type = .loaded
    swap
    · exact achieves_initClass_of_skipped hm hget (.inl (hm.claimed_of_ne hget hloaded))
    have harray := (LoadedClass.isArray_of_file?_eq hfile).trans hdarray
    refine achieves_initClass_of_super haloof hloaded hget harray (achieves_observe_bind ?_)
    have hsome : ((m.begin type).table.get? type).bind LoadedClass.superName? = some superName := by
      change ((m.table.setState type .beingInitialized).get? type).bind _ = _
      rw [ClassTable.get?_setState_self hget]
      exact (LoadedClass.superName?_of_file?_eq hfile).trans hdsuper
    rw [hsome]
    -- the super class can be loaded, and what has been met is claimed, this class included
    have hbegun := hm.begin type
    have hseen' : ∀ other ∈ name :: seen, ∃ id, (m.begin type).table.find? other = some id ∧
        (m.begin type).Claimed id := by
      intro other hother
      rcases List.mem_cons.mp hother with rfl | hother
      · exact ⟨type, (ClassTable.find?_setState _ _ _ _).trans hfind,
          .inl (ClassTable.stateOf_setState_self hget)⟩
      · obtain ⟨id, hid, hclaimed⟩ := hseen other hother
        exact ⟨id, (ClassTable.find?_setState _ _ _ _).trans hid, hclaimed.setState (.inl rfl)⟩
    have hloads : ∃ c, finder.loaded? superName = some c := by
      rcases h.loads with hmet | hloads
      · obtain ⟨id, hid, -⟩ := hseen' superName hmet
        obtain ⟨c', hget', -⟩ := ClassTable.get?_of_find? hid
        obtain ⟨d', hd', -⟩ := hbegun.settled.exists_loaded? hid hget'
        exact ⟨d', hd'⟩
      · exact hloads
    obtain ⟨superType, hload, hsuperFind⟩ := hbegun.exists_load hloads
    have hunmoved := Machine.unmoved_load superName (m.begin type)
    have hloaded : (load superName : Procedure σ Throwable _).Achieves engine (m.begin type)
        fun found m' => found = some superType ∧ m' = (Machine.load superName (m.begin type)).2 :=
      achieves_change hload ⟨rfl, rfl⟩ rfl
    refine achieves_bind hloaded ?_
    rintro _ _ ⟨rfl, rfl⟩
    refine (ih (hbegun.load superName) hsuperFind fun other hother => ?_).mono fun _ _ honly => ?_
    · obtain ⟨id, hid, hclaimed⟩ := hseen' other hother
      exact ⟨id, hunmoved.keeps.find? hid, Machine.keepsClaims_of_unmoved hunmoved id hclaimed⟩
    · have hfirst : (m.begin type).OnlyClasses (Machine.load superName (m.begin type)).2 :=
        ⟨_, (m.begin type).journal, (m.begin type).memory, rfl⟩
      exact hfirst.trans honly

end Procedure

end ClassHost
