import ClassHost.Proofs.Loader.PlanLevels

/-!
# Plans and field types

The name of an array class is read in two ways. Loading plans it, where the brackets are counted and
what is behind them is taken as a whole; reading a field descriptor goes through it bracket by
bracket and ends a class name at the first semicolon. Both readings come to an element with brackets
in front, `arrayDescriptor` for a plan and `FieldType.nested` for a type, and these write the same
text.

* `FieldType.nested_innermost`: a type that has dimensions is its innermost element, nested.
* `LoadPlan.Describes`: a plan and a type are for the same array.
* `resolve_agrees`: a text that is planned is also read, as the type that the plan describes. A text
  that is read is planned unless it has too many dimensions, or a bracket in its class name.
-/

namespace ClassHost

/-- A plan is for the arrays of a type: as many dimensions, and the same innermost element. -/
inductive LoadPlan.Describes : LoadPlan → FieldType → Prop where
  | objectArray {plan : ArrayPlan String} {type : FieldType}
      (hdimension : plan.dimension = type.dimensions)
      (hcomponent : type.innermost = .object plan.component) : Describes (.objectArray plan) type
  | primitiveArray {plan : ArrayPlan BaseType} {type : FieldType}
      (hdimension : plan.dimension = type.dimensions)
      (hcomponent : type.innermost = .base plan.component) : Describes (.primitiveArray plan) type

-- ---------------------------------------------------------------------------
-- Nested arrays
-- ---------------------------------------------------------------------------

namespace FieldType

variable {element : FieldType}

/-- The array of an element with `outer + 1` dimensions around it. -/
def nested (element : FieldType) : Nat → FieldType
  | 0 => array element
  | outer + 1 => array (nested element outer)

theorem text_nested (element : FieldType) (outer : Nat) :
    (nested element outer).text = arrayDescriptor element.text outer := by
  induction outer with
  | zero => exact text_array element
  | succ outer ih => rw [nested, text_array, ih, arrayDescriptor]

theorem dimensions_nested (element : FieldType) (outer : Nat) :
    (nested element outer).dimensions = element.dimensions + (outer + 1) := by
  induction outer with
  | zero => rfl
  | succ outer ih =>
    rw [nested, dimensions, ih]
    omega

theorem innermost_nested (element : FieldType) (outer : Nat) :
    (nested element outer).innermost = element.innermost := by
  induction outer with
  | zero => rfl
  | succ outer ih => rw [nested, innermost, ih]

/-- Only the element can be void: what is around it is an array. -/
theorem wellFormed_nested {outer : Nat} :
    (nested element outer).WellFormed ↔ element ≠ base .void ∧ element.WellFormed := by
  induction outer with
  | zero => exact Iff.rfl
  | succ outer ih =>
    have harray : nested element outer ≠ base .void := by cases outer <;> exact nofun
    rw [← ih]
    exact ⟨fun h => h.2, fun h => ⟨harray, h⟩⟩

/-- An element with brackets in front of its descriptor is read as nested. -/
theorem parse_arrayDescriptor (hvoid : element ≠ base .void) (hwell : element.WellFormed)
    (outer : Nat) : parse (arrayDescriptor element.text outer) = .ok (nested element outer) :=
  parse_eq_ok_iff.mpr ⟨wellFormed_nested.mpr ⟨hvoid, hwell⟩, text_nested element outer⟩

/-- A type with dimensions is its innermost element, nested: by induction on the type, where the
element of an array has no dimensions or is nested itself. -/
theorem nested_innermost {type : FieldType} {outer : Nat} (h : type.dimensions = outer + 1) :
    nested type.innermost outer = type := by
  induction type generalizing outer with
  | base type => exact nomatch h
  | object className => exact nomatch h
  | array element ih =>
    have hinner : element.dimensions = outer := Nat.succ.inj h
    cases outer with
    | zero =>
      cases element with
      | base type => rfl
      | object className => rfl
      | array element => exact nomatch hinner
    | succ outer =>
      rw [nested, innermost, ih hinner]

/-- What is innermost is no array. -/
theorem innermost_ne_array (type element : FieldType) : type.innermost ≠ array element := by
  induction type with
  | base type => exact nofun
  | object className => exact nofun
  | array inner ih => exact ih

end FieldType

-- ---------------------------------------------------------------------------
-- One text, read in two ways
-- ---------------------------------------------------------------------------

variable {text : String} {plan : LoadPlan} {type : FieldType}

/-- A name that stands for an array is the descriptor of a type. -/
theorem Resolves.exists_type (h : Resolves text plan) (hbracketed : IsBracketed text) :
    ∃ type, FieldType.parse text = .ok type ∧ plan.Describes type := by
  -- a plan stands for its component nested in its levels, and both sides read the same text
  cases h with
  | instanceClass hplain => exact absurd hbracketed hplain
  | @objectArray component outer hcomponent _ hname =>
    have hclass : FieldType.object component ≠ .base .void := nofun
    have hwell : (FieldType.object component).WellFormed :=
      ⟨hcomponent.nonempty, hcomponent.noSemicolon⟩
    refine ⟨.nested (.object component) outer, ?_, .objectArray ?_ ?_⟩
    · rw [hname, componentDescriptor, ← FieldType.text_object]
      exact FieldType.parse_arrayDescriptor hclass hwell outer
    · rw [ArrayPlan.dimension_build, FieldType.dimensions_nested]
      exact (Nat.zero_add _).symm
    · rw [ArrayPlan.component_build, FieldType.innermost_nested]
      rfl
  | @primitiveArray base outer hvoid _ hname =>
    have hbase : FieldType.base base ≠ .base .void := fun heq => hvoid (FieldType.base.inj heq)
    refine ⟨.nested (.base base) outer, ?_, .primitiveArray ?_ ?_⟩
    · rw [hname]
      exact FieldType.parse_arrayDescriptor hbase trivial outer
    · rw [ArrayPlan.dimension_build, FieldType.dimensions_nested]
      exact (Nat.zero_add _).symm
    · rw [ArrayPlan.component_build, FieldType.innermost_nested]
      rfl

/-- A plan keeps to the number of dimensions, and there is no bracket in its component. -/
theorem Resolves.within (h : Resolves text plan) (hdescribes : plan.Describes type) :
    type.dimensions ≤ 255 ∧ ∀ name, type.innermost = .object name → '[' ∉ name.toList := by
  cases h with
  | instanceClass => exact nomatch hdescribes
  | @objectArray component outer hcomponent houter =>
    cases hdescribes with
    | objectArray hdimension hinner =>
      rw [ArrayPlan.dimension_build] at hdimension
      rw [ArrayPlan.component_build] at hinner
      refine ⟨hdimension ▸ houter, fun name hname => ?_⟩
      rw [hinner, FieldType.object.injEq] at hname
      exact hname ▸ hcomponent.noBracket
  | @primitiveArray base outer hvoid houter =>
    cases hdescribes with
    | primitiveArray hdimension hinner =>
      rw [ArrayPlan.dimension_build] at hdimension
      refine ⟨hdimension ▸ houter, fun name hname => ?_⟩
      rw [hinner] at hname
      exact nomatch hname

/-- The descriptor of a type within these bounds stands for an array. -/
theorem exists_resolves_text {outer : Nat} (hwell : type.WellFormed)
    (hdimensions : type.dimensions = outer + 1) (houter : outer < LoadPlan.maxDimensions)
    (hname : ∀ name, type.innermost = .object name → '[' ∉ name.toList) :
    ∃ plan, Resolves type.text plan := by
  rw [← FieldType.nested_innermost hdimensions] at hwell ⊢
  obtain ⟨hvoid, hwell⟩ := FieldType.wellFormed_nested.mp hwell
  rw [FieldType.text_nested]
  cases hinner : type.innermost with
  | base base =>
    rw [hinner] at hvoid
    exact ⟨_, .primitiveArray (fun heq => hvoid (congrArg _ heq)) houter rfl⟩
  | object name =>
    rw [hinner] at hwell
    rw [FieldType.text_object]
    exact ⟨_, .objectArray ⟨hwell.1, hwell.2, hname name hinner⟩ houter rfl⟩
  | array element => exact absurd hinner (type.innermost_ne_array element)

/-- **Two readings of a name.** If loading has a plan for a text that begins with a bracket, then
the text is a field descriptor, for as many dimensions as the plan has and with the same innermost
element. If it is a field descriptor, then loading has a plan for it exactly if it has at most 255
dimensions and no bracket in the name of its class, if there is one. -/
theorem resolve_agrees (text : String) (h : IsBracketed text) :
    (∀ plan, LoadPlan.resolve text = .ok plan →
      ∃ type, FieldType.parse text = .ok type ∧ plan.Describes type) ∧
    ∀ type, FieldType.parse text = .ok type →
      ((∃ plan, LoadPlan.resolve text = .ok plan) ↔
        type.dimensions ≤ 255 ∧
          ∀ name, type.innermost = .object name → '[' ∉ name.toList) := by
  refine ⟨fun plan hplan => (resolves_of_resolve hplan).exists_type h, fun type hparse => ?_⟩
  obtain ⟨hwell, htext⟩ := FieldType.parse_eq_ok_iff.mp hparse
  constructor
  · rintro ⟨plan, hplan⟩
    have hresolves := resolves_of_resolve hplan
    obtain ⟨type', hparse', hdescribes⟩ := hresolves.exists_type h
    obtain rfl := Except.ok.inj (hparse.symm.trans hparse')
    exact hresolves.within hdescribes
  · rintro ⟨hle, hname⟩
    have hbrackets : leadingBrackets text = type.dimensions := by
      rw [← htext, FieldType.leadingBrackets_text]
    -- a bracketed text has a level, so there is a plan to ask for
    obtain ⟨outer, houter⟩ : ∃ outer, type.dimensions = outer + 1 := by
      refine Nat.exists_eq_succ_of_ne_zero fun hzero => ?_
      rw [hzero] at hbrackets
      exact leadingBrackets_eq_zero_iff.mp hbrackets h
    rw [houter] at hle
    obtain ⟨plan, hplan⟩ := exists_resolves_text hwell houter hle hname
    exact ⟨plan, resolve_of_resolves (htext ▸ hplan)⟩

/-- A class may have a name that begins like the descriptor of an array. It has a type then, and so
have its arrays, but they have no plan. -/
theorem bracketedName_read_not_planned :
    (IsBracketed "[[L[I;" ∧ IsBracketed "[[LI;") ∧
    FieldType.parse "[[L[I;" = .ok (.array (.array (.object "[I"))) ∧
    (¬ ∃ plan, LoadPlan.resolve "[[L[I;" = .ok plan) ∧
    ∃ plan, LoadPlan.resolve "[[LI;" = .ok plan ∧
      ∃ type, FieldType.parse "[[LI;" = .ok type ∧ plan.Describes type := by
  have hread : FieldType.parse "[[L[I;" = .ok (.array (.array (.object "[I"))) := by rfl
  have hplain : FieldType.parse "[[LI;" = .ok (.array (.array (.object "I"))) := by rfl
  refine ⟨by decide, hread, fun hplan => ?_, ?_⟩
  · exact (((resolve_agrees "[[L[I;" (by decide)).2 _ hread).mp hplan).2 "[I" rfl (by decide)
  · obtain ⟨hagrees, hplanned⟩ := resolve_agrees "[[LI;" (by decide)
    obtain ⟨plan, hplan⟩ := (hplanned _ hplain).mpr
      ⟨by decide, fun name hname => by cases hname; decide⟩
    exact ⟨plan, hplan, hagrees plan hplan⟩

end ClassHost
