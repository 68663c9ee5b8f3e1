import ClassHost.Proofs.Loader.Plans

/-!
# The levels of a plan

A name with brackets in front asks for one array class for each bracket, and the descriptor of each
of them is the rest of the name from its bracket on. So everything about a plan can be read off the
characters of the name: how many brackets there are, what follows them, and which parts of the name
are the descriptors of the levels (`bracketLevels`).

`resolve_exact` says which names have a plan and what it is, in these terms only. It is put together
from `Resolves`, which says it by how names are built up.
-/

namespace ClassHost

/-- What may follow the brackets of an array's name: a letter, or a class name between `L` and `;`. -/
inductive IsElementText : List Char → Prop where
  | primitive {letter : Char} (h : letter ∈ ['Z', 'C', 'F', 'D', 'B', 'S', 'I', 'J']) :
      IsElementText [letter]
  | object {component : String} (h : IsComponentName component) :
      IsElementText ('L' :: component.toList ++ [';'])

/-- Dimension and descriptor for each bracket of a name: the outermost level has all of the name,
and each level after it one bracket less. -/
def bracketLevels (name : String) : List (Nat × String) :=
  (List.range (leadingBrackets name)).map fun i =>
    (leadingBrackets name - i, String.ofList (name.toList.drop i))

/-- A plan as it can be read off a name. -/
inductive Spells (name : String) : LoadPlan → Prop where
  | instanceClass (hplain : leadingBrackets name = 0) : Spells name (.instanceClass name)
  | objectArray {plan : ArrayPlan String} (hlevels : plan.levels = bracketLevels name)
      (hcomponent : name.toList.drop (leadingBrackets name) =
        'L' :: plan.component.toList ++ [';']) : Spells name (.objectArray plan)
  /-- The component is the very type of the letter. -/
  | primitiveArray {plan : ArrayPlan BaseType} (hlevels : plan.levels = bracketLevels name)
      (hcomponent : name.toList.drop (leadingBrackets name) = [plan.component.code]) :
      Spells name (.primitiveArray plan)

-- ---------------------------------------------------------------------------
-- Names and their brackets
-- ---------------------------------------------------------------------------

variable {name element : String} {outer : Nat}

theorem leadingBrackets_eq_zero_iff : leadingBrackets name = 0 ↔ ¬ IsBracketed name := by
  unfold leadingBrackets IsBracketed
  cases name.toList with
  | nil => simp
  | cons first rest => by_cases h : first = '[' <;> simp [h]

/-- Without some of its brackets, a descriptor is that of an array of less dimensions. -/
theorem drop_arrayDescriptor (element : String) {i : Nat} (h : i ≤ outer) :
    String.ofList ((arrayDescriptor element outer).toList.drop i) =
      arrayDescriptor element (outer - i) := by
  rw [← String.toList_inj, String.toList_ofList, toList_arrayDescriptor, toList_arrayDescriptor,
    List.drop_append_of_le_length (by simp; omega), List.drop_replicate, Nat.succ_sub h]

/-- Without any of its brackets, a descriptor is that of the element. -/
theorem drop_leadingBrackets (h : ¬ IsBracketed element) (outer : Nat) :
    (arrayDescriptor element outer).toList.drop
      (leadingBrackets (arrayDescriptor element outer)) = element.toList := by
  rw [leadingBrackets_arrayDescriptor h, toList_arrayDescriptor,
    List.drop_left' List.length_replicate]

/-- A name that begins with brackets is a descriptor of what comes after them. -/
theorem eq_arrayDescriptor (h : leadingBrackets name = outer + 1) :
    name = arrayDescriptor (String.ofList (name.toList.drop (outer + 1))) outer := by
  have hsplit := replicate_append_dropWhile name.toList
  have hlength : (name.toList.takeWhile (· = '[')).length = outer + 1 := h
  rw [hlength] at hsplit
  have hdrop := congrArg (List.drop (outer + 1)) hsplit
  rw [List.drop_left' List.length_replicate] at hdrop
  rw [← String.toList_inj, toList_arrayDescriptor, String.toList_ofList, ← hdrop, hsplit]

-- ---------------------------------------------------------------------------
-- Levels
-- ---------------------------------------------------------------------------

/-- The levels of a plan that is built from the inside out, by induction on the brackets. -/
theorem ArrayPlan.levels_build {Component : Type} (element : String) (component : Component)
    (outer : Nat) :
    (ArrayPlan.build element component outer).levels =
      (List.range (outer + 1)).map fun i => (outer + 1 - i, arrayDescriptor element (outer - i)) := by
  induction outer with
  | zero => rfl
  | succ outer ih =>
    rw [build, levels, dimension_build, descriptor_build, ih, List.range_succ_eq_map (n := outer + 1),
      List.map_cons, List.map_map]
    have hlevel : ∀ i, outer + 1 + 1 - (i + 1) = outer + 1 - i := by omega
    simp [arrayDescriptor, Function.comp_def, hlevel]

theorem levels_eq_bracketLevels {Component : Type} (h : ¬ IsBracketed element)
    (component : Component) (outer : Nat) :
    (ArrayPlan.build element component outer).levels =
      bracketLevels (arrayDescriptor element outer) := by
  rw [ArrayPlan.levels_build, bracketLevels, leadingBrackets_arrayDescriptor h]
  refine List.map_congr_left fun i hi => ?_
  rw [drop_arrayDescriptor element (Nat.le_of_lt_succ (List.mem_range.mp hi))]

/-- What a name stands for can be read off the name. -/
theorem Resolves.spells {plan : LoadPlan} (h : Resolves name plan) :
    Spells name plan ∧ plan.name = name := by
  cases h with
  | instanceClass hname hne => exact ⟨.instanceClass (leadingBrackets_eq_zero_iff.mpr hname), rfl⟩
  | @objectArray component outer hcomponent houter hname =>
    subst hname
    have hplain := not_isBracketed_componentDescriptor component
    refine ⟨.objectArray (levels_eq_bracketLevels hplain _ _) ?_, ArrayPlan.descriptor_build _ _ _⟩
    rw [drop_leadingBrackets hplain, toList_componentDescriptor, ArrayPlan.component_build]
  | @primitiveArray type outer hvoid houter hname =>
    subst hname
    have hplain := not_isBracketed_text type
    refine ⟨.primitiveArray (levels_eq_bracketLevels hplain _ _) ?_,
      ArrayPlan.descriptor_build _ _ _⟩
    rw [drop_leadingBrackets hplain, ArrayPlan.component_build]
    exact String.toList_singleton _

-- ---------------------------------------------------------------------------
-- Names that have a plan
-- ---------------------------------------------------------------------------

/-- The names that have a plan, by their characters. -/
def IsPlannable (name : String) : Prop :=
  name ≠ "" ∧ (leadingBrackets name = 0 ∨
    (1 ≤ leadingBrackets name ∧ leadingBrackets name ≤ 255) ∧
      IsElementText (name.toList.drop (leadingBrackets name)))

theorem isElementText_text {type : BaseType} (h : type ≠ .void) :
    IsElementText type.text.toList := by
  have hletter : type.code ∈ ['Z', 'C', 'F', 'D', 'B', 'S', 'I', 'J'] := by
    cases type with
    | void => exact absurd rfl h
    | _ => decide
  rw [BaseType.text, String.toList_singleton]
  exact .primitive hletter

theorem isElementText_componentDescriptor {component : String} (h : IsComponentName component) :
    IsElementText (componentDescriptor component).toList := by
  rw [toList_componentDescriptor]
  exact .object h

theorem exists_code_eq {letter : Char} (h : letter ∈ ['Z', 'C', 'F', 'D', 'B', 'S', 'I', 'J']) :
    ∃ type : BaseType, type ≠ .void ∧ type.code = letter := by
  have hfound : ['Z', 'C', 'F', 'D', 'B', 'S', 'I', 'J'].all
      (fun letter => (BaseType.ofCode? letter).isSome) = true := by decide
  obtain ⟨type, htype⟩ := Option.isSome_iff_exists.mp (List.all_eq_true.mp hfound letter h)
  obtain ⟨hcode, hvoid⟩ := BaseType.code_of_ofCode? htype
  exact ⟨type, hvoid, hcode⟩

/-- An array of what an element's text says has a plan. -/
theorem IsElementText.resolves (h : IsElementText element.toList)
    (houter : outer < LoadPlan.maxDimensions) :
    ∃ plan, Resolves (arrayDescriptor element outer) plan := by
  generalize helement : element.toList = cs at h
  cases h with
  | primitive hletter =>
    obtain ⟨type, hvoid, hcode⟩ := exists_code_eq hletter
    refine ⟨_, .primitiveArray hvoid houter (congrArg (arrayDescriptor · outer) ?_)⟩
    rw [← String.toList_inj, helement, BaseType.text, hcode, String.toList_singleton]
  | object hcomponent =>
    refine ⟨_, .objectArray hcomponent houter (congrArg (arrayDescriptor · outer) ?_)⟩
    rw [← String.toList_inj, helement, toList_componentDescriptor]

theorem isPlannable_arrayDescriptor (h : ¬ IsBracketed element)
    (htext : IsElementText element.toList) (houter : outer < LoadPlan.maxDimensions) :
    IsPlannable (arrayDescriptor element outer) := by
  have hbrackets := leadingBrackets_arrayDescriptor h outer
  refine ⟨fun hempty => ?_, .inr ⟨?_, ?_⟩⟩
  · rw [hempty] at hbrackets
    exact absurd hbrackets (Nat.succ_ne_zero outer).symm
  · rw [hbrackets]
    exact ⟨Nat.succ_pos outer, houter⟩
  · rwa [drop_leadingBrackets h]

/-- The names that stand for something are told by their characters. -/
theorem exists_resolves_iff : (∃ plan, Resolves name plan) ↔ IsPlannable name := by
  constructor
  · rintro ⟨plan, h⟩
    cases h with
    | instanceClass hname hne => exact ⟨hne, .inl (leadingBrackets_eq_zero_iff.mpr hname)⟩
    | objectArray hcomponent houter hname =>
      exact hname ▸ isPlannable_arrayDescriptor (not_isBracketed_componentDescriptor _)
        (isElementText_componentDescriptor hcomponent) houter
    | primitiveArray hvoid houter hname =>
      exact hname ▸ isPlannable_arrayDescriptor (not_isBracketed_text _)
        (isElementText_text hvoid) houter
  · rintro ⟨hne, hplain | ⟨⟨hpos, hle⟩, htext⟩⟩
    · exact ⟨_, .instanceClass (leadingBrackets_eq_zero_iff.mp hplain) hne⟩
    -- the leading brackets are peeled off, and the rest is the element's text
    · obtain ⟨outer, houter⟩ := Nat.exists_eq_succ_of_ne_zero (Nat.ne_of_gt hpos)
      rw [houter] at hle htext
      rw [eq_arrayDescriptor houter]
      refine IsElementText.resolves ?_ hle
      rwa [String.toList_ofList]

/-- **Planning**, for every text there is. A text has a plan exactly if it is not empty and has no
bracket in front, or at most 255, with a letter or a class name between `L` and `;` behind them.
Without brackets the plan is for the text itself. With brackets it has one level for each of them:
the level of a dimension has the last part of the text with as many brackets as its descriptor, and
the innermost holds the named class or the very type of the letter. The plan is named by the text,
and a failure repeats it. -/
theorem resolve_exact (name : String) :
    ((∃ plan, LoadPlan.resolve name = .ok plan) ↔ IsPlannable name) ∧
    (∀ plan, LoadPlan.resolve name = .ok plan → Spells name plan ∧ plan.name = name) ∧
    ∀ error, LoadPlan.resolve name = .error error → error.descriptor = name := by
  refine ⟨?_, fun plan hplan => (resolves_of_resolve hplan).spells, fun error herror => ?_⟩
  · rw [← exists_resolves_iff]
    exact exists_congr fun plan => resolve_eq_ok_iff
  · unfold LoadPlan.resolve at herror
    split at herror
    · exact nomatch herror
    · rw [← Except.error.inj herror]

/-- Two brackets in front of a class name, in which any other character may stand. -/
example : LoadPlan.resolve "[[Lété/Ü;" = .ok (.objectArray
    (.level "[[Lété/Ü;" (.last "[Lété/Ü;" "été/Ü"))) := by rfl

end ClassHost
