import ClassHost.Proofs.Machine.InitializationSteps
import ClassHost.Proofs.Machine.TableSteps

/-!
# Super classes first

A class is initialised after its super class. That cannot be taken literally: an initialiser may ask
for a subclass of its own class before it is done, and classes may be super classes of each other in
a circle. What holds is a statement about the call stack. When a class runs its own initialiser, its
super class is initialised, or it is being initialised by a frame that is still open; and when no
such frame is open, the super class of every initialised class is initialised.

It holds as long as no attempt fails, for an attempt that fails gives its class back while the
classes that went on in the meantime stay as they are, and as long as nobody else sets states.
`Mark.Smooth` says so of the marks of a run, one by one, so the statement is about any run up to the
first mark at which that goes wrong.

The invariant is `Machine.Ordered`. A class that is being initialised has an open frame for it, and
the super class of an initialised class is initialised or has one. So at any moment the states of
classes are explained by the stack, and no frame has to know what happened inside the ones it
opened. `carries_perform` is the induction over the nesting of steps.
-/

namespace ClassHost

variable {σ α : Type}

-- ---------------------------------------------------------------------------
-- Frames and marks
-- ---------------------------------------------------------------------------

/-- Someone is about to set the state of a class. -/
def Mark.moves : Mark σ → Bool
  | begins (.request (.access (.setState _ _))) _
  | begins (.request (.access (.transition _ _ _))) _ => true
  | _ => false

/-- An attempt on a class that was loaded ends without success. -/
def Mark.fails (frames : List (Asked σ)) : Mark σ → Bool
  | ends (.request (.initClass _ _)) (.ok (.ok ())) _ => false
  | ends (.request (.initClass _ type)) _ _ =>
    frames.head?.any fun frame => frame.machine.table.stateOf type = .loaded
  | _ => false

/-- States are set by whoever initialises a class and by nobody else, and no attempt fails. -/
def Mark.Smooth (frames : List (Asked σ)) (mark : Mark σ) : Prop :=
  (mark.moves = true → (innermost? frames).isSome = true) ∧ mark.fails frames = false

instance (frames : List (Asked σ)) (mark : Mark σ) : Decidable (mark.Smooth frames) :=
  inferInstanceAs (Decidable (_ ∧ _))

/-- What is said of the super classes at a mark. -/
structure Mark.SuperFirst (frames : List (Asked σ)) (mark : Mark σ) : Prop where
  /-- A class is about to run its own initialiser. -/
  invoked : ∀ thread method arguments m type superName,
    mark = .begins (.request (.invoke thread method arguments)) m → innermost? frames = some type →
    (m.table.get? type).bind LoadedClass.superName? = some superName →
    ∃ superType, m.table.find? superName = some superType ∧
      (m.table.stateOf superType = .fullyInitialized ∨
        m.table.stateOf superType = .beingInitialized ∧
          ∃ frame ∈ frames, frame.initializing? = some superType)
  /-- No class is being initialised. -/
  settled : (∀ frame ∈ mark.shift frames, frame.initializing? = none) →
    ∀ type c superName, mark.machine.table.get? type = some c → c.state = .fullyInitialized →
      c.isArray = false → c.superName? = some superName →
      ∃ superType, mark.machine.table.find? superName = some superType ∧
        mark.machine.table.stateOf superType = .fullyInitialized

variable {frames : List (Asked σ)} {frame : Asked σ} {mark : Mark σ} {marks marks' : List (Mark σ)}
  {engine : Engine σ} {fuel : Nat} {step : Step σ} {m m' m'' : Machine σ} {thread : ThreadId}
  {type : ClassId} {except : List String}

/-- While a class is being initialised, there is nothing to say but where an initialiser is
invoked. -/
theorem Mark.superFirst_of_open (hmem : frame ∈ mark.shift frames)
    (hopen : frame.initializing? = some type)
    (hmark : ∀ thread method arguments m,
      mark ≠ .begins (.request (.invoke thread method arguments)) m) :
    mark.SuperFirst frames where
  invoked thread method arguments m _ _ h := absurd h (hmark thread method arguments m)
  settled hnone := by
    rw [hnone frame hmem] at hopen
    exact nomatch hopen

/-- So there is nothing to say about an instant step in such a frame. -/
theorem superFirst_instant (hopen : frame.initializing? = some type) (hstep : step.Instant) :
    Along Mark.SuperFirst (frame :: frames) (Machine.traceOf engine fuel step m) := by
  refine Machine.along_traceOf_instant hstep ?_ fun result m' => ?_
  · refine Mark.superFirst_of_open (List.mem_cons_of_mem _ List.mem_cons_self) hopen ?_
    rintro thread method arguments m' h
    rw [(Mark.begins.inj h).1] at hstep
    exact hstep
  · exact Mark.superFirst_of_open List.mem_cons_self hopen (by simp)

-- ---------------------------------------------------------------------------
-- The invariant
-- ---------------------------------------------------------------------------

namespace Machine

/-- The super class of an initialised class is claimed. Classes of some names need not keep to
that. -/
def SupersClaimed (except : List String) (m : Machine σ) : Prop :=
  ∀ type c, m.table.get? type = some c → c.state = .fullyInitialized → c.name ∉ except →
    c.isArray = false → m.SuperClaimed type

/-- The states of the classes are explained by the open frames. -/
structure Ordered (frames : List (Asked σ)) (m : Machine σ) : Prop where
  busy : ∀ type, m.table.stateOf type = .beingInitialized →
    ∃ frame ∈ frames, frame.initializing? = some type
  supers : m.SupersClaimed []

theorem SuperClaimed.keep {c : LoadedClass} (h : m.SuperClaimed type)
    (hget : m.table.get? type = some c) (hkeeps : m.table.Keeps m'.table)
    (hclaims : KeepsClaims m m') : m'.SuperClaimed type := by
  intro superName hsuper
  obtain ⟨c', hget', -, hkind⟩ := hkeeps.get? hget
  have hname : (m.table.get? type).bind LoadedClass.superName? = some superName := by
    rw [hget', Option.bind_some, LoadedClass.superName?, hkind] at hsuper
    rw [hget]
    exact hsuper
  obtain ⟨superType, hfind, hclaimed⟩ := h superName hname
  exact ⟨superType, hkeeps.find? hfind, hclaims superType hclaimed⟩

theorem ordered_new (classPath : Finder) (delegateClass : Option String) (memory : σ) :
    (Machine.new classPath delegateClass memory).Ordered [] where
  busy type hbusy := by
    change ClassTable.empty.stateOf type = _ at hbusy
    simp [ClassTable.stateOf] at hbusy
  supers type c hget := by
    change ClassTable.empty.get? type = some c at hget
    simp at hget

theorem Ordered.mono (h : m.Ordered frames) (frame : Asked σ) : m.Ordered (frame :: frames) where
  busy type hbusy := by
    obtain ⟨frame', hmem, hopen⟩ := h.busy type hbusy
    exact ⟨frame', List.mem_cons_of_mem frame hmem, hopen⟩
  supers := h.supers

/-- A frame that initialises nothing explains nothing. -/
theorem Ordered.tail (h : m.Ordered (frame :: frames)) (hframe : frame.initializing? = none) :
    m.Ordered frames where
  busy type hbusy := by
    obtain ⟨frame', hmem, hopen⟩ := h.busy type hbusy
    rcases List.mem_cons.mp hmem with rfl | hmem
    · rw [hframe] at hopen
      exact nomatch hopen
    · exact ⟨frame', hmem, hopen⟩
  supers := h.supers

theorem SupersClaimed.unmoved (hm : m.SupersClaimed except) (h : m.table.Unmoved m'.table) :
    m'.SupersClaimed except := by
  intro type c' hget' hfully hname harray
  have hstate : m'.table.stateOf type = .fullyInitialized :=
    (ClassTable.stateOf_of_get? hget').trans hfully
  -- a class that is initialised now was initialised before, with the same super class
  rcases h.stateOf type with hsame | ⟨-, hloaded⟩
  · have hpresent : m.table.stateOf type ≠ .notLoaded := by rw [← hsame, hstate]; decide
    obtain ⟨c, hget⟩ := ClassTable.exists_get?_of_stateOf hpresent
    obtain ⟨c'', hget'', hsameName, hkind⟩ := h.keeps.get? hget
    obtain rfl := Option.some.inj (hget'.symm.trans hget'')
    have hfully' : c.state = .fullyInitialized := by
      rw [← ClassTable.stateOf_of_get? hget, ← hsame, hstate]
    refine (hm type c hget hfully' (hsameName ▸ hname) ?_).keep hget h.keeps
      (keepsClaims_of_unmoved h)
    rw [LoadedClass.isArray, ← hkind]
    exact harray
  · -- a class that is new is only loaded
    rw [hstate] at hloaded
    exact nomatch hloaded

/-- A class may be claimed; if it is done, its super class has to be claimed, or it has none. -/
theorem SupersClaimed.setState (hm : m.SupersClaimed except) {state : ClassState}
    (hstate : state = .beingInitialized ∨ state = .fullyInitialized)
    (hsuper : state = .fullyInitialized → ∀ c, m.table.get? type = some c → c.name ∉ except →
      c.isArray = false → m.SuperClaimed type) :
    (m.withTable (m.table.setState type state)).SupersClaimed except := by
  intro other c hget hfully hname harray
  have hkeeps : m.table.Keeps (m.withTable (m.table.setState type state)).table :=
    (TableFrame.setState m.table type state).keeps
  have hclaims : KeepsClaims m (m.withTable (m.table.setState type state)) :=
    fun _ hclaimed => hclaimed.setState hstate
  change (m.table.setState type state).get? other = some c at hget
  by_cases hne : type = other
  · -- the class that is stored has its super class claimed by assumption
    subst hne
    cases hold : m.table.get? type with
    | none => simp [ClassTable.setState, ClassTable.get?_modify, hold] at hget
    | some old =>
      rw [ClassTable.get?_setState_self hold] at hget
      obtain rfl := Option.some.inj hget
      exact (hsuper hfully old hold hname harray).keep hold hkeeps hclaims
  · rw [ClassTable.get?_setState_of_ne hne] at hget
    exact (hm other c hget hfully hname harray).keep hget hkeeps hclaims

theorem Ordered.unmoved (hm : m.Ordered frames) (h : m.table.Unmoved m'.table) :
    m'.Ordered frames where
  busy type hbusy := by
    rcases h.stateOf type with hsame | ⟨-, hloaded⟩
    · exact hm.busy type (hsame ▸ hbusy)
    · rw [hloaded] at hbusy
      exact nomatch hbusy
  supers := hm.supers.unmoved h

/-- With no frame left to explain anything, what is claimed is initialised. -/
theorem Ordered.settled (hm : m.Ordered frames)
    (hnone : ∀ frame ∈ frames, frame.initializing? = none) {c : LoadedClass} {superName : String}
    (hget : m.table.get? type = some c) (hfully : c.state = .fullyInitialized)
    (harray : c.isArray = false) (hsuper : c.superName? = some superName) :
    ∃ superType, m.table.find? superName = some superType ∧
      m.table.stateOf superType = .fullyInitialized := by
  obtain ⟨superType, hfind, hbusy | hdone⟩ := hm.supers type c hget hfully List.not_mem_nil harray
    superName (by rw [hget]; exact hsuper)
  · obtain ⟨frame, hmem, hopen⟩ := hm.busy superType hbusy
    rw [hnone frame hmem] at hopen
    exact nomatch hopen
  · exact ⟨superType, hfind, hdone⟩

/-- The class that a frame is about to initialise is marked, and its frame explains that. -/
theorem Ordered.begin (hm : m.Ordered frames) (hopen : frame.initializing? = some type) :
    (m.begin type).Ordered (frame :: frames) ∧ KeepsClaims m (m.begin type) := by
  refine ⟨⟨fun other hbusy => ?_, hm.supers.setState (.inl rfl) nofun⟩,
    fun _ hclaimed => hclaimed.setState (.inl rfl)⟩
  by_cases hne : type = other
  · exact ⟨frame, List.mem_cons_self, hne ▸ hopen⟩
  · change (m.table.setState type .beingInitialized).stateOf other = _ at hbusy
    rw [ClassTable.stateOf_setState_of_ne hne] at hbusy
    obtain ⟨frame', hmem, hopen'⟩ := hm.busy other hbusy
    exact ⟨frame', List.mem_cons_of_mem frame hmem, hopen'⟩

/-- A class that is done needs its frame no more, if its super class is claimed or it has none. -/
theorem Ordered.done (hm : m.Ordered (frame :: frames)) (hopen : frame.initializing? = some type)
    (htable : m'.table = m.table.setState type .fullyInitialized)
    (hsuper : ∀ c, m.table.get? type = some c → c.isArray = false → m.SuperClaimed type) :
    m'.Ordered frames ∧ KeepsClaims m m' := by
  have hset : (m.withTable (m.table.setState type .fullyInitialized)).table.Unmoved m'.table :=
    .of_eq htable
  have hsupers := hm.supers.setState (.inr rfl) fun _ c hget _ harray => hsuper c hget harray
  have hclaims : KeepsClaims m (m.withTable (m.table.setState type .fullyInitialized)) :=
    fun _ hclaimed => hclaimed.setState (.inr rfl)
  refine ⟨⟨fun other hbusy => ?_, hsupers.unmoved hset⟩,
    hclaims.trans (keepsClaims_of_unmoved hset)⟩
  rw [htable] at hbusy
  -- whatever is busy now is another class, so its frame is further out
  have hne : type ≠ other := by
    rintro rfl
    obtain ⟨c, hget⟩ := ClassTable.exists_get?_of_stateOf (by rw [hbusy]; decide)
    cases hold : m.table.get? type with
    | none => simp [ClassTable.setState, ClassTable.get?_modify, hold] at hget
    | some c =>
      rw [ClassTable.stateOf_setState_self hold] at hbusy
      cases hbusy
  rw [ClassTable.stateOf_setState_of_ne hne] at hbusy
  obtain ⟨frame', hmem, hopen'⟩ := hm.busy other hbusy
  rcases List.mem_cons.mp hmem with rfl | hmem
  · exact absurd (Option.some.inj (hopen.symm.trans hopen')) hne
  · exact ⟨frame', hmem, hopen'⟩

end Machine

-- ---------------------------------------------------------------------------
-- Stretches
-- ---------------------------------------------------------------------------

/-- At every mark that a smooth run gets to, super classes come first. -/
def Guarded (frames : List (Asked σ)) (marks : List (Mark σ)) : Prop :=
  ∀ before mark after, marks = before ++ mark :: after →
    Along Mark.Smooth frames (before ++ [mark]) → mark.SuperFirst (openFrames frames before)

theorem guarded_nil : Guarded frames [] := by
  intro before mark after h
  simp at h

theorem guarded_of_along (h : Along Mark.SuperFirst frames marks) : Guarded frames marks :=
  fun before mark after hsplit _ => h before mark after hsplit

theorem Guarded.append (h : Guarded frames marks)
    (h' : Along Mark.Smooth frames marks → Guarded (openFrames frames marks) marks') :
    Guarded frames (marks ++ marks') := by
  intro before mark after hsplit hsmooth
  rcases split_of_append hsplit with ⟨last, hmarks, -⟩ | ⟨first, hmarks', rfl⟩
  · exact h before mark last hmarks hsmooth
  · rw [List.append_assoc, along_append] at hsmooth
    rw [openFrames_append]
    exact h' hsmooth.1 first mark after hmarks' hsmooth.2

theorem guarded_singleton (h : mark.Smooth frames → mark.SuperFirst frames) :
    Guarded frames [mark] := by
  intro before next after hsplit hsmooth
  rcases List.cons_eq_append_iff.mp hsplit with ⟨rfl, hhead⟩ | ⟨_, -, hnil⟩
  · obtain ⟨rfl, -⟩ := List.cons.inj hhead
    exact h (along_cons.mp hsmooth).1
  · simp at hnil

/-- A stretch that leaves the stack as it was, and if it is smooth, the states explained by it. -/
structure Carries (frames : List (Asked σ)) (_ : Option Halt) (m : Machine σ)
    (marks : List (Mark σ)) (m' : Machine σ) : Prop where
  balanced : openFrames frames marks = frames
  guarded : m.Ordered frames → Guarded frames marks
  ordered : m.Ordered frames → Along Mark.Smooth frames marks →
    m'.Ordered frames ∧ Machine.KeepsClaims m m'

theorem spans_carries (frames : List (Asked σ)) : Spans (Carries frames) where
  nil m := ⟨rfl, fun _ => guarded_nil, fun hm _ => ⟨hm, .refl m⟩⟩
  append {halt m m' m'' marks marks'} h h' := by
    refine ⟨?_, fun hm => ?_, fun hm hsmooth => ?_⟩
    · rw [openFrames_append, h.balanced, h'.balanced]
    · refine (h.guarded hm).append fun hsmooth => ?_
      rw [h.balanced]
      exact h'.guarded (h.ordered hm hsmooth).1
    · rw [along_append, h.balanced] at hsmooth
      obtain ⟨hm', hclaims⟩ := h.ordered hm hsmooth.1
      obtain ⟨hm'', hclaims'⟩ := h'.ordered hm' hsmooth.2
      exact ⟨hm'', hclaims.trans hclaims'⟩

/-- What a frame that initialises a class leaves to its own stores, and when it may run an
initialiser. Other frames may ask for anything. -/
structure Asked.Allowed (frames : List (Asked σ)) (part : Asked σ) : Prop where
  stays : (innermost? frames).isSome → ∀ access, part.step = .request (.access access) →
    ¬ access.Moves
  ready : ∀ type, innermost? frames = some type →
    ∀ thread method arguments, part.step = .request (.invoke thread method arguments) →
      part.machine.SuperClaimed type

theorem Asked.allowed_of_none (h : innermost? frames = none) (part : Asked σ) :
    part.Allowed frames := by
  constructor
  · intro hsome
    rw [h] at hsome
    exact nomatch hsome
  · intro type hsome
    rw [h] at hsome
    exact nomatch hsome

/-- What a step that is allowed begins with. -/
theorem superFirst_begins (hm : m.Ordered frames) (hallowed : Asked.Allowed frames ⟨step, m⟩) :
    (Mark.begins step m).SuperFirst frames where
  invoked thread method arguments m' type superName hmark hinnermost hsuper := by
    obtain ⟨rfl, rfl⟩ := Mark.begins.inj hmark
    obtain ⟨superType, hfind, hbusy | hdone⟩ :=
      hallowed.ready type hinnermost thread method arguments rfl superName hsuper
    · exact ⟨superType, hfind, .inr ⟨hbusy, hm.busy superType hbusy⟩⟩
    · exact ⟨superType, hfind, .inl hdone⟩
  settled hnone _ _ _ hget hfully harray hsuper :=
    hm.settled (fun frame hmem => hnone frame (List.mem_cons_of_mem _ hmem)) hget hfully harray
      hsuper

theorem superFirst_ends {result : Except Halt step.Reply} (hm : m'.Ordered frames) :
    (Mark.ends step result m').SuperFirst (frame :: frames) where
  invoked _ _ _ _ _ _ hmark := nomatch hmark
  settled hnone _ _ _ hget hfully harray hsuper := hm.settled hnone hget hfully harray hsuper

/-- A step carries the invariant if what happens between its two marks does. -/
theorem carries_frame {r : Except Halt step.Reply} {parts : List (Asked σ)}
    (hrun : Machine.perform engine (fuel + 1) step m = (r, m'))
    (hasked : Machine.asked engine fuel step m = parts)
    (hallowed : Asked.Allowed frames ⟨step, m⟩)
    (hguarded : m.Ordered frames →
      Guarded (⟨step, m⟩ :: frames) (Machine.traceAll engine fuel parts))
    (hordered : m.Ordered frames → (Mark.begins step m).Smooth frames →
      Along Mark.Smooth (⟨step, m⟩ :: frames) (Machine.traceAll engine fuel parts) →
      (Mark.ends step r m').Smooth (⟨step, m⟩ :: frames) →
      m'.Ordered frames ∧ Machine.KeepsClaims m m') {halt : Option Halt} :
    Carries frames halt m (Machine.traceOf engine (fuel + 1) step m) m' := by
  refine ⟨Machine.openFrames_traceOf _ _ _ _ _, fun hm => ?_, fun hm hsmooth => ?_⟩
  · -- the two marks of the frame are guarded, and so is what stands between them
    have hbegins : Guarded frames [.begins step m] :=
      guarded_singleton fun _ => superFirst_begins hm hallowed
    rw [Machine.traceOf_succ, hrun, hasked, ← List.singleton_append]
    refine hbegins.append fun hbegun => (hguarded hm).append fun hsmooth => ?_
    rw [Machine.openFrames_traceAll]
    exact guarded_singleton fun hend =>
      superFirst_ends (hordered hm (along_cons.mp hbegun).1 hsmooth hend).1
  · -- smooth along the whole stretch is smooth at both marks and in between
    rw [Machine.along_traceOf_succ, hrun, hasked] at hsmooth
    obtain ⟨hbegun, hinner, hend⟩ := hsmooth
    exact hordered hm hbegun hinner hend

/-- An instant step that moves no class. -/
theorem carries_unmoved {r : Except Halt step.Reply} (hstep : step.Instant)
    (hrun : Machine.perform engine (fuel + 1) step m = (r, m'))
    (hallowed : Asked.Allowed frames ⟨step, m⟩)
    (hunmoved : (Mark.begins step m).Smooth frames → m.table.Unmoved m'.table)
    {halt : Option Halt} :
    Carries frames halt m (Machine.traceOf engine (fuel + 1) step m) m' :=
  carries_frame hrun (Machine.asked_instant hstep) hallowed (fun _ => guarded_nil)
    fun hm hbegun _ _ =>
      ⟨hm.unmoved (hunmoved hbegun), Machine.keepsClaims_of_unmoved (hunmoved hbegun)⟩

/-- A frame that initialises nothing, around a stretch that carries the invariant. -/
theorem carries_around (hallowed : Asked.Allowed frames ⟨step, m⟩)
    (hstep : Asked.initializing? ⟨step, m⟩ = none) {first middle : Machine σ}
    (hfirst : first.table = m.table) {halt : Option Halt}
    (hinner : Carries (⟨step, m⟩ :: frames) halt first
      (Machine.traceAll engine fuel (Machine.asked engine fuel step m)) middle)
    (hlast : (Machine.perform engine (fuel + 1) step m).2.table = middle.table) :
    Carries frames halt m (Machine.traceOf engine (fuel + 1) step m)
      (Machine.perform engine (fuel + 1) step m).2 := by
  have hbefore : m.table.Unmoved first.table := .of_eq hfirst
  have hafter : middle.table.Unmoved (Machine.perform engine (fuel + 1) step m).2.table :=
    .of_eq hlast
  have hopened : m.Ordered frames → first.Ordered (⟨step, m⟩ :: frames) :=
    fun hm => (hm.mono _).unmoved hbefore
  refine carries_frame (Prod.eta _).symm rfl hallowed (fun hm => hinner.guarded (hopened hm))
    fun hm _ hsmooth _ => ?_
  obtain ⟨hmiddle, hclaims⟩ := hinner.ordered (hopened hm) hsmooth
  exact ⟨(hmiddle.tail hstep).unmoved hafter, (Machine.keepsClaims_of_unmoved hbefore).trans
    (hclaims.trans (Machine.keepsClaims_of_unmoved hafter))⟩

-- ---------------------------------------------------------------------------
-- An initialisation
-- ---------------------------------------------------------------------------

section Initialization

variable (ih : ∀ (frames : List (Asked σ)) (step : Step σ) (m : Machine σ),
    Asked.Allowed frames ⟨step, m⟩ →
    Carries frames (halted (Machine.perform engine fuel step m).1) m
      (Machine.traceOf engine fuel step m) (Machine.perform engine fuel step m).2)

include ih

/-- Initialising the super class. -/
theorem carries_initializeSuper (m : Machine σ) :
    (Procedure.initializeSuper thread type).Spanned (Carries (frame :: frames)) engine fuel m := by
  have hspans := spans_carries (frame :: frames)
  have hnil : ∀ m : Machine σ, Carries (frame :: frames) none m [] m := hspans.nil
  unfold Procedure.initializeSuper
  refine Procedure.spanned_bind hspans (Procedure.spanned_lift_call (ih _ _ m ?_))
    fun seen middle _ => ?_
  · exact ⟨fun _ access haccess => by cases haccess; exact id, nofun⟩
  -- which class it is does not matter yet, only that the frame may ask for it
  cases (seen.table.get? type).bind LoadedClass.superName? with
  | none => exact hnil middle
  | some superName =>
    refine Procedure.spanned_bind hspans (Procedure.spanned_load (ih _ _ middle ?_))
      fun found last _ => ?_
    · exact ⟨fun _ access haccess => by cases haccess; exact id, nofun⟩
    cases found with
    | none => exact hnil last
    | some superType => exact Procedure.spanned_initClass (ih _ _ last ⟨nofun, nofun⟩)

/-- Running the initialiser, when the super class is claimed. -/
theorem carries_invokeInitializer (hopen : frame.initializing? = some type) (m : Machine σ)
    (hsuper : m.SuperClaimed type) :
    (Procedure.invokeInitializer thread type).Spanned (Carries (frame :: frames)) engine fuel m := by
  have hspans := spans_carries (frame :: frames)
  have hnil : ∀ m : Machine σ, Carries (frame :: frames) none m [] m := hspans.nil
  unfold Procedure.invokeInitializer
  refine Procedure.spanned_bind hspans (Procedure.spanned_lift_call (ih _ _ m ?_))
    fun seen middle hobserve => ?_
  · exact ⟨fun _ access haccess => by cases haccess; exact id, nofun⟩
  have happly : (m, m) = (seen, middle) := Procedure.exec_access_ok hobserve
  obtain ⟨rfl, rfl⟩ := Prod.mk.inj happly
  cases m.table.method? .static type Procedure.initializerKey with
  | none => exact hnil m
  | some method =>
    refine Procedure.spanned_bind hspans (Procedure.spanned_invoke (ih _ _ _ ⟨nofun, ?_⟩))
      fun _ last _ => hnil last
    -- the one step that needs the super class to be claimed
    intro other hother _ _ _ _
    obtain rfl := Option.some.inj (hopen.symm.trans hother)
    exact hsuper

/-- The initialisers of an attempt, and the super class behind them. -/
theorem carries_runInitializers (hopen : frame.initializing? = some type) {c : LoadedClass}
    (hget : m.table.get? type = some c) :
    (Procedure.runInitializers thread type).Spanned (Carries (frame :: frames)) engine fuel m ∧
    (m.Ordered (frame :: frames) →
      Along Mark.Smooth (frame :: frames) (Machine.traceAll engine fuel
        ((Procedure.runInitializers thread type).asked engine fuel m)) →
      (Procedure.runInitializers thread type).exec engine fuel m = (.ok (.ok ()), m') →
      m'.SuperClaimed type) := by
  have hfirst : (Procedure.initializeSuper thread type).Spanned (Carries (frame :: frames)) engine
      fuel m := carries_initializeSuper ih m
  -- when the super class is done it is claimed, which the own initialiser relies on
  have hsecond : ∀ middle,
      (Procedure.initializeSuper thread type).exec engine fuel m = (.ok (.ok ()), middle) →
      middle.SuperClaimed type ∧
        (Procedure.invokeInitializer thread type).Spanned (Carries (frame :: frames)) engine fuel
          middle := by
    intro middle hrun
    have hsuper := Procedure.superClaimed_of_initializeSuper hget hrun
    exact ⟨hsuper, carries_invokeInitializer ih hopen middle hsuper⟩
  refine ⟨Procedure.spanned_bind (spans_carries _) hfirst fun _ middle hrun =>
    (hsecond middle hrun).2, fun hm hsmooth hrun => ?_⟩
  obtain ⟨_, middle, hsuperRun, hownRun⟩ := Procedure.exec_bind_ok hrun
  -- and it is still claimed when that has returned
  obtain ⟨hsuper, hown⟩ := hsecond middle hsuperRun
  rw [Procedure.runInitializers, Procedure.asked_bind, hsuperRun, Machine.traceAll_append,
    along_append, Machine.openFrames_traceAll] at hsmooth
  unfold Procedure.Spanned at hfirst hown
  rw [hsuperRun] at hfirst
  rw [hownRun] at hown
  obtain ⟨hmiddle, -⟩ := hfirst.ordered hm hsmooth.1
  obtain ⟨-, hclaims⟩ := hown.ordered hmiddle hsmooth.2
  have hkeeps := Procedure.keeps_exec engine fuel (Procedure.initializeSuper thread type) m
  rw [hsuperRun] at hkeeps
  obtain ⟨c', hget', -⟩ := hkeeps.get? hget
  have hkeeps' := Procedure.keeps_exec engine fuel (Procedure.invokeInitializer thread type) middle
  rw [hownRun] at hkeeps'
  exact hsuper.keep hget' hkeeps' hclaims

end Initialization

/-- What a frame asks for at once, to look at its class, to move it or to take a note. -/
theorem guarded_instant (hopen : frame.initializing? = some type) {parts : List (Asked σ)}
    (h : ∀ part ∈ parts, part.step.Instant) :
    Guarded (frame :: frames) (Machine.traceAll engine fuel parts) :=
  guarded_of_along (Machine.along_traceAll fun part hmem => superFirst_instant hopen (h part hmem))

/-- An array class is marked as initialised, and needs no super class for that. -/
theorem carries_array (hloaded : m.table.stateOf type = .loaded)
    (harray : ((m.table.get? type).map LoadedClass.isArray).getD false = true)
    {halt : Option Halt} :
    Carries frames halt m
      (Machine.traceOf engine (fuel + 2) (.request (.initClass thread type)) m)
      (m.withTable (m.table.setState type .fullyInitialized)) := by
  refine carries_frame ((Machine.perform_initClass engine (fuel + 1) thread type m).trans
      (Procedure.exec_initialization_of_array hloaded harray))
    ((Machine.asked_initClass engine (fuel + 1) thread type m).trans
      (Procedure.asked_initialization_of_array hloaded harray)) ⟨nofun, nofun⟩ (fun _ => ?_)
    fun hm _ _ _ => ?_
  · exact guarded_instant rfl (by simp [Step.Instant])
  · -- an array has no super class to wait for
    refine (hm.mono ⟨.request (.initClass thread type), m⟩).done rfl rfl fun c hget hplain => ?_
    rw [hget, Option.map_some, Option.getD_some, hplain] at harray
    cases harray

/-- An attempt. In a smooth run it succeeds. Then the class is done, its super class is claimed, and
its state needs no frame to explain it. -/
theorem carries_attempt (ih : ∀ (frames : List (Asked σ)) (step : Step σ) (m : Machine σ),
      Asked.Allowed frames ⟨step, m⟩ →
      Carries frames (halted (Machine.perform engine (fuel + 1) step m).1) m
        (Machine.traceOf engine (fuel + 1) step m) (Machine.perform engine (fuel + 1) step m).2)
    (hloaded : m.table.stateOf type = .loaded)
    (harray : ((m.table.get? type).map LoadedClass.isArray).getD false = false)
    {r : Except Halt (Except Throwable Unit)}
    (hrun : Machine.perform engine (fuel + 2) (.request (.initClass thread type)) m = (r, m'))
    {halt : Option Halt} :
    Carries frames halt m
      (Machine.traceOf engine (fuel + 2) (.request (.initClass thread type)) m) m' := by
  let frame : Asked σ := ⟨.request (.initClass thread type), m⟩
  have hopen : frame.initializing? = some type := rfl
  obtain ⟨c, hget⟩ := ClassTable.exists_get?_of_stateOf (by rw [hloaded]; decide)
  rcases hinitializers :
    (Procedure.runInitializers thread type).exec engine (fuel + 1) (m.begin type) with ⟨r', middle⟩
  obtain ⟨hinner, hsuper⟩ : (Procedure.runInitializers thread type).Spanned
      (Carries (frame :: frames)) engine (fuel + 1) (m.begin type) ∧ (_ → _ → _ →
        middle.SuperClaimed type) :=
    carries_runInitializers ih hopen (ClassTable.get?_setState_self hget)
  unfold Procedure.Spanned at hinner
  rw [hinitializers] at hinner hsuper
  dsimp only at hinner
  have hasked := (Machine.asked_initClass engine (fuel + 1) thread type m).trans
    (Procedure.asked_initialization_of_loaded hloaded harray)
  rw [hinitializers] at hasked
  refine carries_frame hrun hasked ⟨nofun, nofun⟩ (fun hm => ?_) fun hm _ hsmooth hend => ?_
  · -- opening, the initialisers and closing, one after the other
    rw [Machine.traceAll_append, Machine.traceAll_append]
    refine (guarded_instant hopen (Procedure.instant_openingSteps type m)).append fun _ => ?_
    rw [Machine.openFrames_traceAll]
    refine (hinner.guarded (hm.begin hopen).1).append fun _ => ?_
    rw [Machine.openFrames_traceAll]
    exact guarded_instant hopen (Procedure.instant_closing type _)
  · -- no attempt fails in a smooth stretch, so this one has succeeded
    obtain rfl : r = .ok (.ok ()) := by
      rcases r with halt | error | _
      · simp [Mark.Smooth, Mark.fails, hloaded] at hend
      · simp [Mark.Smooth, Mark.fails, hloaded] at hend
      · rfl
    rw [Machine.perform_initClass, Procedure.exec_initialization_of_loaded hloaded harray,
      hinitializers] at hrun
    rw [Machine.traceAll_append, along_append, Machine.traceAll_append, along_append,
      Machine.openFrames_traceAll] at hsmooth
    obtain ⟨-, hsmooth, -⟩ := hsmooth
    -- claimed by this frame first, and in the end for good
    obtain ⟨hbegun, hclaims⟩ := hm.begin hopen
    obtain ⟨hmiddle, hclaims'⟩ := hinner.ordered hbegun hsmooth
    rcases r' with halt' | error | _
    · exact nomatch (Prod.mk.inj hrun).1
    · exact nomatch (Prod.mk.inj hrun).1
    · obtain ⟨-, rfl⟩ := Prod.mk.inj hrun
      have hdone : (middle.finish type true).Ordered frames ∧
          middle.KeepsClaims (middle.finish type true) :=
        hmiddle.done hopen rfl fun _ _ _ => hsuper hbegun hsmooth rfl
      exact ⟨hdone.1, hclaims.trans (hclaims'.trans hdone.2)⟩

/-- A class that is not loaded is only looked at. -/
theorem carries_skipped (hstate : m.table.stateOf type ≠ .loaded)
    {r : Except Halt (Except Throwable Unit)}
    (hrun : Machine.perform engine (fuel + 2) (.request (.initClass thread type)) m = (r, m'))
    {halt : Option Halt} :
    Carries frames halt m
      (Machine.traceOf engine (fuel + 2) (.request (.initClass thread type)) m) m' := by
  obtain rfl := Procedure.eq_of_initialization_of_ne hstate hrun
  refine carries_frame hrun ((Machine.asked_initClass engine (fuel + 1) thread type m').trans
    (Procedure.asked_initialization_of_ne hstate)) ⟨nofun, nofun⟩ (fun _ => ?_)
    fun hm _ _ _ => ⟨hm, .refl m'⟩
  exact guarded_instant rfl (by simp [Step.Instant])

/-- Initialising a class, in whatever state it is. -/
theorem carries_initClass (ih : ∀ (frames : List (Asked σ)) (step : Step σ) (m : Machine σ),
      Asked.Allowed frames ⟨step, m⟩ →
      Carries frames (halted (Machine.perform engine (fuel + 1) step m).1) m
        (Machine.traceOf engine (fuel + 1) step m) (Machine.perform engine (fuel + 1) step m).2)
    {r : Except Halt (Except Throwable Unit)}
    (hrun : Machine.perform engine (fuel + 2) (.request (.initClass thread type)) m = (r, m'))
    {halt : Option Halt} :
    Carries frames halt m
      (Machine.traceOf engine (fuel + 2) (.request (.initClass thread type)) m) m' := by
  by_cases hloaded : m.table.stateOf type = .loaded
  · cases harray : ((m.table.get? type).map LoadedClass.isArray).getD false with
    | true =>
      rw [Machine.perform_initClass, Procedure.exec_initialization_of_array hloaded harray] at hrun
      obtain ⟨-, rfl⟩ := Prod.mk.inj hrun
      exact carries_array hloaded harray
    | false => exact carries_attempt ih hloaded harray hrun
  · exact carries_skipped hloaded hrun

/-- **One step.** Whatever a step does, and whatever the steps inside it do, it leaves the states of
the classes explained, as long as all goes smoothly. -/
theorem carries_perform (engine : Engine σ) (fuel : Nat) (frames : List (Asked σ)) (step : Step σ)
    (m : Machine σ) (hallowed : Asked.Allowed frames ⟨step, m⟩) :
    Carries frames (halted (Machine.perform engine fuel step m).1) m
      (Machine.traceOf engine fuel step m) (Machine.perform engine fuel step m).2 := by
  induction fuel generalizing frames step m with
  | zero => exact ⟨rfl, fun _ => guarded_nil, fun hm _ => ⟨hm, .refl m⟩⟩
  | succ fuel ih =>
    -- what is asked for in a frame that initialises no class
    have hop : ∀ {frame : Asked σ}, frame.initializing? = none → ∀ step : Step σ, True →
        ∀ m, Carries (frame :: frames) (halted (Machine.perform engine fuel step m).1) m
          (Machine.traceOf engine fuel step m) (Machine.perform engine fuel step m).2 := by
      intro frame hframe step _ m
      have hnone : innermost? (frame :: frames) = none := hframe
      exact ih _ step m (Asked.allowed_of_none hnone _)
    -- a class is moved by its own frame only; all other frames leave the classes to what they ask for
    match step, hallowed with
    | .request (.access access), hallowed =>
      have hinstant : Step.Instant (.request (.access access) : Step σ) := trivial
      have hrun := Machine.perform_access engine fuel access m
      rw [hrun]
      refine carries_unmoved hinstant hrun hallowed fun hbegun =>
        Access.unmoved (fun hmoves => ?_) m
      have hsome : (innermost? frames).isSome := by
        cases access <;> first | exact hbegun.1 rfl | exact hmoves.elim
      exact hallowed.stays hsome access rfl hmoves
    | .upkeep upkeep, hallowed =>
      have hinstant : Step.Instant (.upkeep upkeep : Step σ) := trivial
      have hrun := Machine.perform_upkeep engine fuel upkeep m
      rw [hrun]
      exact carries_unmoved hinstant hrun hallowed fun _ => .of_eq (upkeep.keeps m).1
    | .request .panic, hallowed =>
      have hrun : Machine.perform engine (fuel + 1) (.request .panic) m = (.error .panicked, m) := rfl
      rw [hrun]
      exact carries_frame hrun rfl hallowed (fun _ => guarded_nil) fun hm _ _ _ => ⟨hm, .refl m⟩
    | .request (.initClass thread type), hallowed =>
      match fuel, ih with
      | 0, _ =>
        have hrun : Machine.perform engine 1 (.request (.initClass thread type)) m =
            (.error .exhausted, m) := rfl
        rw [hrun]
        refine carries_frame hrun rfl hallowed (fun _ => ?_) fun hm _ _ _ => ⟨hm, .refl m⟩
        rw [Machine.traceAll_zero]
        exact guarded_nil
      | fuel + 1, ih => exact carries_initClass ih (Prod.eta _).symm
    | .request (.invoke _ _ _), hallowed | .request (.boot _ _), hallowed =>
      exact carries_around hallowed rfl rfl
        (spans_asked (spans_carries _) (hop rfl) (Program.only_true _) m) rfl
    | .callEngine _, hallowed =>
      exact carries_around hallowed rfl rfl
        (spans_asked (spans_carries _) (fun request => hop rfl (.request request))
          (Program.only_true _) m) rfl
    | .request (.supervise entry arguments), hallowed =>
      have hbody := spans_asked (spans_carries _)
        (hop (rfl : Asked.initializing? ⟨.request (.supervise entry arguments), m⟩ = none))
        (Program.only_true (Procedure.mainThread entry arguments).run) m.entered
      exact carries_around hallowed rfl (rfl : m.entered.table = m.table)
        ⟨hbody.balanced, hbody.guarded, hbody.ordered⟩
        (Machine.table_supervise engine fuel entry arguments m)

-- ---------------------------------------------------------------------------
-- Runs
-- ---------------------------------------------------------------------------

/-- **Super classes come first.** Take any run of a guest on a new machine, with any engine, and any
mark of it up to which states were set by initialisations only and no attempt has failed. If a class
is about to run its own initialiser there, its super class is initialised, or being initialised by
an open frame. If no class is being initialised after the mark, then the super class of every
initialised instance class is there and initialised. -/
theorem supers_first (engine : Engine σ) (fuel : Nat) (guest : Guest σ α) (classPath : Finder)
    (delegateClass : Option String) (memory : σ) {before after : List (Mark σ)} {mark : Mark σ}
    (hsplit : Machine.trace engine fuel guest (.new classPath delegateClass memory) =
      before ++ mark :: after)
    (hsmooth : Along Mark.Smooth [] (before ++ [mark])) :
    mark.SuperFirst (openFrames [] before) := by
  have hnone : innermost? ([] : List (Asked σ)) = none := rfl
  have htrace := spans_asked (spans_carries [])
    (fun request (_ : True) m => carries_perform engine fuel [] (.request request) m
      (Asked.allowed_of_none hnone _))
    (Program.only_true guest) (.new classPath delegateClass memory)
  exact htrace.guarded (Machine.ordered_new classPath delegateClass memory) before mark after hsplit
    hsmooth

/-- The file of a class with an initialiser. -/
def circleFile (name superName : UInt8) : Bytes :=
  [0xCA, 0xFE, 0xBA, 0xBE, 0, 0, 0, 52, 0, 7, 7, 0, 2, 1, 0, 1, name,
    1, 0, 8, 60, 99, 108, 105, 110, 105, 116, 62, 1, 0, 3, 40, 41, 86, 7, 0, 6, 1, 0, 1, superName,
    0, 0, 0, 1, 0, 5, 0, 0, 0, 0, 0, 1, 0, 8, 0, 3, 0, 4, 0, 0, 0, 0]

/-- Two classes that are each other's super class. -/
def circlePath : Finder := fun name =>
  if name = "A" then some ⟨.memory name, circleFile 65 66⟩
  else if name = "B" then some ⟨.memory name, circleFile 66 65⟩
  else none

/-- An engine whose initialisers ask for both classes. -/
def circleEngine : Engine Unit where
  respond call :=
    .ask (.initClass call.thread ⟨0⟩) fun _ => .ask (.initClass call.thread ⟨1⟩) fun _ =>
      .done (.ok none)

/-- The trace of a run that loads one of the classes and initialises it. -/
def circleTrace : List (Mark Unit) :=
  let guest : Guest Unit Unit :=
    .ask (.access (.load "A")) fun _ => .ask (.initClass ⟨0⟩ ⟨0⟩) fun _ => .done ()
  Machine.trace circleEngine 9 guest (.new circlePath none ())

/-- The second class is about to run its initialiser, while the first one, its super class, is being
initialised. -/
def Mark.closesCircle (frames : List (Asked Unit)) : Mark Unit → Bool
  | begins (.request (.invoke _ _ _)) m =>
    innermost? frames = some ⟨1⟩ && m.table.find? "A" = some ⟨0⟩ &&
      m.table.stateOf ⟨0⟩ = .beingInitialized &&
      (m.table.get? ⟨1⟩).bind LoadedClass.superName? = some "A"
  | _ => false

/-- In the circle, the class that came last runs its initialiser first. Its super class has the
frame that all began with, and in the end both are initialised. -/
theorem circleTrace_superFirst :
    Along Mark.Smooth [] circleTrace ∧
    (∃ before mark after, circleTrace = before ++ mark :: after ∧
      mark.closesCircle (openFrames [] before) = true ∧
      ∃ frame ∈ openFrames [] before, frame.initializing? = some ⟨0⟩) ∧
    ∃ before mark, circleTrace = before ++ [mark] ∧
      mark.machine.table.stateOf ⟨0⟩ = .fullyInitialized ∧
      ∃ superType, mark.machine.table.find? "B" = some superType ∧
        mark.machine.table.stateOf superType = .fullyInitialized := by
  have hsmooth : Along Mark.Smooth [] circleTrace := by decide +kernel
  refine ⟨hsmooth, ?_, ?_⟩
  · -- some mark closes the circle: the super class is busy there in a frame further out
    have hcloses : ¬ Along (fun frames mark => Mark.closesCircle frames mark = false) []
        circleTrace := by decide +kernel
    obtain ⟨before, mark, after, hsplit, hmark⟩ := exists_of_not_along hcloses
    rw [Bool.not_eq_false] at hmark
    rw [hsplit, List.append_cons, along_append] at hsmooth
    have hfirst := supers_first circleEngine 9 _ circlePath none () hsplit hsmooth.1
    refine ⟨before, mark, after, hsplit, hmark, ?_⟩
    unfold Mark.closesCircle at hmark
    split at hmark
    · simp only [Bool.and_eq_true, decide_eq_true_eq] at hmark
      obtain ⟨⟨⟨hinnermost, hfind⟩, hbusy⟩, hsuper⟩ := hmark
      obtain ⟨superType, hfound, hdone | ⟨-, hopen⟩⟩ :=
        hfirst.invoked _ _ _ _ _ _ rfl hinnermost hsuper
      · obtain rfl := Option.some.inj (hfind.symm.trans hfound)
        rw [hbusy] at hdone
        exact nomatch hdone
      · obtain rfl := Option.some.inj (hfind.symm.trans hfound)
        exact hopen
    · exact nomatch hmark
  · -- when the run is over, both classes are initialised
    have hends : (circleTrace.getLast?.any fun mark =>
        (mark.machine.table.get? ⟨0⟩).any fun c =>
          c.state = .fullyInitialized && !c.isArray && c.superName? = some "B") = true := by
      decide +kernel
    obtain ⟨mark, hlast, htest⟩ := (Option.any_eq_true _ _).mp hends
    obtain ⟨c, hget, hclass⟩ := (Option.any_eq_true _ _).mp htest
    simp only [Bool.and_eq_true, decide_eq_true_eq, Bool.not_eq_true'] at hclass
    obtain ⟨⟨hfully, harray⟩, hsuper⟩ := hclass
    obtain ⟨before, hsplit⟩ := List.getLast?_eq_some_iff.mp hlast
    have hfirst := supers_first circleEngine 9 _ circlePath none () hsplit (hsplit ▸ hsmooth)
    have hclosed : openFrames [] circleTrace = [] := Machine.openFrames_traceAll _ _ _ _
    rw [hsplit, openFrames_append] at hclosed
    refine ⟨before, mark, hsplit, (ClassTable.stateOf_of_get? hget).trans hfully,
      hfirst.settled (fun frame hmem => ?_) _ _ _ hget hfully harray hsuper⟩
    rw [show mark.shift (openFrames [] before) = [] from hclosed] at hmem
    exact absurd hmem List.not_mem_nil

end ClassHost
