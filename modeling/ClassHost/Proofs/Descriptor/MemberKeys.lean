import ClassHost.Override
import ClassHost.Proofs.ClassTable
import ClassHost.Proofs.Descriptor.MethodTypes
import ClassHost.Proofs.Heap

/-!
# Members by their keys

A class file gives the members of a class by two texts, a name and a descriptor, and nobody has
looked at the descriptor when the class is loaded. The machine asks for a member by a key, in which
the descriptor has been read into a type; a lookup writes the type out again and compares texts.
That is right because writing a type undoes reading it: a key and the two texts that it was built
from tell the same members apart (`MethodKey.eq_iff_of_parse`, `FieldKey.eq_iff_of_parse`).

* `Member.IsFirst`: the member that two texts stand for.
* `MethodKey.FoundByTexts`: what the lookups of a class find for a key.
* `members_told_by_texts`: the lookups of a class and the tables that are kept by keys, those of
  overrides, static fields and fields of objects, are tables of texts.
-/

namespace ClassHost

-- ---------------------------------------------------------------------------
-- Members by their texts
-- ---------------------------------------------------------------------------

/-- The two texts of a member. -/
def Member.Has (member : Member) (name descriptor : String) : Prop :=
  member.name = name ∧ member.descriptor = descriptor

instance (member : Member) (name descriptor : String) : Decidable (member.Has name descriptor) :=
  inferInstanceAs (Decidable (_ ∧ _))

/-- The member has the two texts, and no member before it has them. -/
def Member.IsFirst (member : Member) (members : List Member) (name descriptor : String) : Prop :=
  member.Has name descriptor ∧ ∃ before after, members = before ++ member :: after ∧
    ∀ other ∈ before, ¬ other.Has name descriptor

/-- The methods in the class file of a class, none for an array class. -/
def LoadedClass.methods (c : LoadedClass) : List Member := (c.file?.map ClassFile.methods).getD []

/-- The override of a method by its two texts. -/
def OverrideModule.byTexts? (entry : OverrideModule) (name descriptor : String) :
    Option Override :=
  (entry.methods.find? fun method =>
    method.1.name = name ∧ method.1.type.text = descriptor).map Prod.snd

/-- The override of a method by the name of its class and its two texts. -/
def Overrides.byTexts? (overrides : Overrides) (className name descriptor : String) :
    Option Override :=
  (overrides.modules.find? fun entry => entry.className = className).bind fun entry =>
    entry.byTexts? name descriptor

theorem Member.find?_eq_some_iff {members : List Member} {name descriptor : String}
    {member : Member} :
    Member.find? members name descriptor = some member ↔
      member.IsFirst members name descriptor := by
  rw [Member.find?, List.find?_eq_some_iff_append]
  simp only [decide_eq_true_eq, Bool.not_eq_true', decide_eq_false_iff_not]
  exact Iff.rfl

theorem Member.find?_eq_none_iff {members : List Member} {name descriptor : String} :
    Member.find? members name descriptor = none ↔
      ∀ member ∈ members, ¬ member.Has name descriptor := by
  rw [Member.find?, List.find?_eq_none]
  simp only [decide_eq_true_eq]
  exact Iff.rfl

-- ---------------------------------------------------------------------------
-- Keys from texts
-- ---------------------------------------------------------------------------

variable {name descriptor name' descriptor' : String}

theorem MethodKey.parse_eq_ok_iff {key : MethodKey} :
    MethodKey.parse name descriptor = .ok key ↔
      key.name = name ∧ key.type.WellFormed ∧ key.type.text = descriptor := by
  rw [← MethodType.parse_eq_ok_iff, MethodKey.parse]
  obtain ⟨keyName, type⟩ := key
  cases MethodType.parse descriptor with
  | error e => exact ⟨nofun, nofun⟩
  | ok read =>
    change Except.ok (⟨name, read⟩ : MethodKey) = .ok ⟨keyName, type⟩ ↔ _
    simp only [Except.ok.injEq, MethodKey.mk.injEq, eq_comm]

theorem FieldKey.parse_eq_ok_iff {key : FieldKey} :
    FieldKey.parse name descriptor = .ok key ↔
      key.name = name ∧ key.type.WellFormed ∧ key.type.text = descriptor := by
  rw [← FieldType.parse_eq_ok_iff, FieldKey.parse]
  obtain ⟨keyName, type⟩ := key
  cases FieldType.parse descriptor with
  | error e => exact ⟨nofun, nofun⟩
  | ok read =>
    change Except.ok (⟨name, read⟩ : FieldKey) = .ok ⟨keyName, type⟩ ↔ _
    simp only [Except.ok.injEq, FieldKey.mk.injEq, eq_comm]

/-- Method keys are told apart by the texts that they were built from. -/
theorem MethodKey.eq_iff_of_parse {key key' : MethodKey}
    (h : MethodKey.parse name descriptor = .ok key)
    (h' : MethodKey.parse name' descriptor' = .ok key') :
    key = key' ↔ name = name' ∧ descriptor = descriptor' := by
  constructor
  · rintro rfl
    obtain ⟨hname, -, htext⟩ := MethodKey.parse_eq_ok_iff.mp h
    obtain ⟨hname', -, htext'⟩ := MethodKey.parse_eq_ok_iff.mp h'
    exact ⟨hname.symm.trans hname', htext.symm.trans htext'⟩
  · rintro ⟨rfl, rfl⟩
    exact Except.ok.inj (h.symm.trans h')

/-- Field keys are told apart by the texts that they were built from. -/
theorem FieldKey.eq_iff_of_parse {key key' : FieldKey}
    (h : FieldKey.parse name descriptor = .ok key)
    (h' : FieldKey.parse name' descriptor' = .ok key') :
    key = key' ↔ name = name' ∧ descriptor = descriptor' := by
  constructor
  · rintro rfl
    obtain ⟨hname, -, htext⟩ := FieldKey.parse_eq_ok_iff.mp h
    obtain ⟨hname', -, htext'⟩ := FieldKey.parse_eq_ok_iff.mp h'
    exact ⟨hname.symm.trans hname', htext.symm.trans htext'⟩
  · rintro ⟨rfl, rfl⟩
    exact Except.ok.inj (h.symm.trans h')

-- ---------------------------------------------------------------------------
-- Methods of a class
-- ---------------------------------------------------------------------------

/-- What the three lookups of a class find for the key of two texts. -/
structure MethodKey.FoundByTexts (table : ClassTable) (id : ClassId) (c : LoadedClass)
    (name descriptor : String) (key : MethodKey) : Prop where
  /-- The first method with these texts, and nothing else. -/
  some_iff : ∀ method, table.method? .any id key = some method ↔
    ∃ member, Member.IsFirst member c.methods name descriptor ∧ method = ⟨id, key, member.flags⟩
  none_iff : table.method? .any id key = none ↔
    ∀ member ∈ c.methods, ¬ Member.Has member name descriptor
  none_of_array : c.isArray → table.method? .any id key = none
  /-- It is found as a static method or as one that is not, never as both. -/
  kind : ∀ method, table.method? .any id key = some method →
    (table.method? .static id key = some method ∧ table.method? .nonStatic id key = none) ∨
    (table.method? .static id key = none ∧ table.method? .nonStatic id key = some method)

variable {table : ClassTable} {id : ClassId} {c : LoadedClass}

/-- The flags of a method are looked for among the methods of the class, which are none if it is an
array class. -/
theorem LoadedClass.methodFlags?_eq (c : LoadedClass) (key : MethodKey) :
    c.methodFlags? key =
      (Member.find? c.methods key.name key.type.text).map Member.flags := by
  rw [methodFlags?, methods]
  cases c.file? with
  | none => rfl
  | some file => rfl

theorem LoadedClass.methods_of_isArray (h : c.isArray) : c.methods = [] := by
  unfold isArray at h
  unfold methods file?
  cases hkind : c.kind with
  | instances file source =>
    rw [hkind] at h
    exact nomatch h
  | objectArray shape => rfl
  | primitiveArray shape => rfl

/-- A lookup goes through the methods of the class and then looks at the flags. -/
theorem ClassTable.method?_eq (h : table.get? id = some c) (kind : MethodKind) (key : MethodKey) :
    table.method? kind id key =
      (Member.find? c.methods key.name key.type.text).bind fun member =>
        if kind.accepts member.flags then some ⟨id, key, member.flags⟩ else none := by
  rw [method?, h]
  change ((c.methodFlags? key).bind fun flags =>
    if kind.accepts flags then some (⟨id, key, flags⟩ : MethodRef) else none) = _
  rw [LoadedClass.methodFlags?_eq, Option.bind_map]
  rfl

theorem MethodKey.foundByTexts {key : MethodKey} (h : table.get? id = some c)
    (hkey : MethodKey.parse name descriptor = .ok key) :
    MethodKey.FoundByTexts table id c name descriptor key := by
  obtain ⟨hname, -, htext⟩ := MethodKey.parse_eq_ok_iff.mp hkey
  have hlookup : ∀ kind, table.method? kind id key =
      (Member.find? c.methods name descriptor).bind fun member =>
        if MethodKind.accepts kind member.flags then some ⟨id, key, member.flags⟩ else none := by
    intro kind
    rw [ClassTable.method?_eq h, hname, htext]
  have hany : table.method? .any id key =
      (Member.find? c.methods name descriptor).map fun member => ⟨id, key, member.flags⟩ := by
    rw [hlookup]
    cases Member.find? c.methods name descriptor with
    | none => rfl
    | some member => rfl
  have hnone : table.method? .any id key = none ↔
      ∀ member ∈ c.methods, ¬ Member.Has member name descriptor := by
    rw [hany, Option.map_eq_none_iff, Member.find?_eq_none_iff]
  refine ⟨fun method => ?_, hnone, fun harray => ?_, fun method hmethod => ?_⟩
  · rw [hany, Option.map_eq_some_iff]
    simp only [Member.find?_eq_some_iff, eq_comm (a := method)]
  · rw [hnone, LoadedClass.methods_of_isArray harray]
    exact nofun
  · rw [hany, Option.map_eq_some_iff] at hmethod
    obtain ⟨member, hfound, rfl⟩ := hmethod
    -- the static bit is set or not, and each of the two lookups wants one of the two
    rw [hlookup .static, hlookup .nonStatic, hfound, Option.bind_some, Option.bind_some,
      MethodKind.accepts, MethodKind.accepts]
    cases member.flags.isStatic with
    | true => exact .inl ⟨rfl, rfl⟩
    | false => exact .inr ⟨rfl, rfl⟩

-- ---------------------------------------------------------------------------
-- Tables that are kept by keys
-- ---------------------------------------------------------------------------

instance (type : MethodType) : Decidable type.WellFormed :=
  decidable_of_iff ((∀ parameter ∈ type.parameters, parameter.WellFormed ∧
    parameter ≠ .base .void) ∧ type.result.WellFormed) ⟨fun h => ⟨h.1, h.2⟩, fun h => ⟨h.1, h.2⟩⟩

/-- The keys of the overrides that there are can be built from texts. -/
theorem OverrideModule.wellFormed_of_mem {entry : OverrideModule} {method : MethodKey × Override}
    (h : method ∈ entry.methods) : method.1.type.WellFormed := by
  have hall : ∀ method ∈ entry.methods, method.1.type.WellFormed := by
    cases entry <;> decide
  exact hall method h

/-- A list of overrides is searched by texts, by induction on the list. -/
theorem lookup_eq_find?_texts {methods : List (MethodKey × Override)} {key : MethodKey}
    (hkey : MethodKey.parse name descriptor = .ok key)
    (hwell : ∀ method ∈ methods, method.1.type.WellFormed) :
    methods.lookup key = (methods.find? fun method =>
      method.1.name = name ∧ method.1.type.text = descriptor).map Prod.snd := by
  induction methods with
  | nil => rfl
  | cons method methods ih =>
    obtain ⟨hfirst, hrest⟩ := List.forall_mem_cons.mp hwell
    -- a well-formed key is read from its own texts, so equal texts mean equal keys
    have hown : MethodKey.parse method.1.name method.1.type.text = .ok method.1 :=
      MethodKey.parse_eq_ok_iff.mpr ⟨rfl, hfirst, rfl⟩
    have hsame : method.1 = key ↔ method.1.name = name ∧ method.1.type.text = descriptor :=
      MethodKey.eq_iff_of_parse hown hkey
    by_cases htexts : method.1.name = name ∧ method.1.type.text = descriptor
    · have hbeq : (key == method.1) = true := beq_iff_eq.mpr (hsame.mpr htexts).symm
      rw [List.lookup_cons, hbeq, List.find?_cons, decide_eq_true htexts]
      rfl
    · have hbeq : (key == method.1) = false :=
        beq_eq_false_iff_ne.mpr fun heq => htexts (hsame.mp heq.symm)
      rw [List.lookup_cons, hbeq, List.find?_cons, decide_eq_false htexts]
      exact ih hrest

/-- Overrides are found by the texts that a key was built from. -/
theorem Overrides.find?_eq_byTexts? (overrides : Overrides) (className : String) {key : MethodKey}
    (hkey : MethodKey.parse name descriptor = .ok key) :
    overrides.find? className key = overrides.byTexts? className name descriptor := by
  rw [find?, byTexts?]
  cases overrides.modules.find? fun entry => entry.className = className with
  | none => rfl
  | some entry =>
    exact lookup_eq_find?_texts hkey fun method hmem => OverrideModule.wellFormed_of_mem hmem

variable {key key' : FieldKey}

/-- Fields are written and read by the texts that their keys were built from. -/
theorem lookup_storeField_of_texts (hkey : FieldKey.parse name descriptor = .ok key)
    (hkey' : FieldKey.parse name' descriptor' = .ok key') (fields : List (FieldKey × Value))
    (value : Value) :
    (storeField fields key value).lookup key' =
      if name = name' ∧ descriptor = descriptor' then some value else fields.lookup key' := by
  by_cases htexts : name = name' ∧ descriptor = descriptor'
  · obtain rfl := (FieldKey.eq_iff_of_parse hkey hkey').mpr htexts
    rw [if_pos htexts, lookup_storeField]
  · have hne : key' ≠ key := fun heq =>
      htexts ((FieldKey.eq_iff_of_parse hkey hkey').mp heq.symm)
    rw [if_neg htexts, lookup_storeField_of_ne hne]

theorem ClassTable.getStatic?_setStatic (hget : table.get? id = some c)
    (hkey : FieldKey.parse name descriptor = .ok key)
    (hkey' : FieldKey.parse name' descriptor' = .ok key') (value : Value) :
    (table.setStatic id key value).getStatic? id key' =
      if name = name' ∧ descriptor = descriptor' then some value
      else table.getStatic? id key' := by
  rw [getStatic?, get?_setStatic_self hget, getStatic?, hget, Option.bind_some, Option.bind_some]
  exact lookup_storeField_of_texts hkey hkey' c.statics value

theorem Heap.field?_setField {heap heap' : Heap} {object : ObjectId} {value : Value}
    (hkey : FieldKey.parse name descriptor = .ok key)
    (hkey' : FieldKey.parse name' descriptor' = .ok key')
    (hset : heap.setField table object key value = .ok heap') :
    (heap'.get? object).bind (·.field? key') =
      if name = name' ∧ descriptor = descriptor' then some value
      else (heap.get? object).bind (·.field? key') := by
  obtain ⟨fields, hbody, rfl⟩ := setField_ok hset
  obtain ⟨⟨type, body⟩, hget, rfl⟩ := Option.map_eq_some_iff.mp hbody
  rw [get?_setBody, if_pos rfl, hget]
  exact lookup_storeField_of_texts hkey hkey' fields value

/-- **Members by their texts.** A class finds the first method of its class file that has the name
and the descriptor which a key was built from, and none if there is no such method, as in an array
class; one that is found is either static or not, and the lookup of its kind finds the same one.
Keys of methods, and keys of fields, are equal exactly if both texts are. So the tables that are
kept by keys go by texts: an override is found by the texts of its method, and a static field or the
field of an object that has been written is seen by its texts and by no others. -/
theorem members_told_by_texts :
    (∀ (table : ClassTable) (id : ClassId) (c : LoadedClass) (name descriptor : String)
      (key : MethodKey), table.get? id = some c → MethodKey.parse name descriptor = .ok key →
      MethodKey.FoundByTexts table id c name descriptor key) ∧
    (∀ (name descriptor name' descriptor' : String) (key key' : MethodKey),
      MethodKey.parse name descriptor = .ok key → MethodKey.parse name' descriptor' = .ok key' →
      (key = key' ↔ name = name' ∧ descriptor = descriptor')) ∧
    (∀ (name descriptor name' descriptor' : String) (key key' : FieldKey),
      FieldKey.parse name descriptor = .ok key → FieldKey.parse name' descriptor' = .ok key' →
      (key = key' ↔ name = name' ∧ descriptor = descriptor') ∧
      (∀ (table : ClassTable) (id : ClassId) (c : LoadedClass) (value : Value),
        table.get? id = some c →
        (table.setStatic id key value).getStatic? id key' =
          if name = name' ∧ descriptor = descriptor' then some value
          else table.getStatic? id key') ∧
      ∀ (heap heap' : Heap) (table : ClassTable) (object : ObjectId) (value : Value),
        heap.setField table object key value = .ok heap' →
        (heap'.get? object).bind (·.field? key') =
          if name = name' ∧ descriptor = descriptor' then some value
          else (heap.get? object).bind (·.field? key')) ∧
    ∀ (overrides : Overrides) (className name descriptor : String) (key : MethodKey),
      MethodKey.parse name descriptor = .ok key →
      overrides.find? className key = overrides.byTexts? className name descriptor := by
  refine ⟨fun table id c name descriptor key => MethodKey.foundByTexts,
    fun name descriptor name' descriptor' key key' => MethodKey.eq_iff_of_parse,
    fun name descriptor name' descriptor' key key' hkey hkey' =>
      ⟨FieldKey.eq_iff_of_parse hkey hkey', ?_, ?_⟩,
    fun overrides className name descriptor key => overrides.find?_eq_byTexts? className⟩
  · intro table id c value hget
    exact ClassTable.getStatic?_setStatic hget hkey hkey' value
  · intro heap heap' table object value hset
    exact Heap.field?_setField hkey hkey' hset

/-- A class with two methods of the same texts, of which the first is static, one of the same name
before them and one with a descriptor that no key has. -/
def overloadedClass : LoadedClass :=
  .ofKind "A" (.instances ⟨0, 52, ⟨#[]⟩, 0, "A", none, [], [], [⟨0, "f", "(I)V", []⟩,
    ⟨8, "f", "()V", []⟩, ⟨0, "f", "()V", []⟩, ⟨0, "f", "()", []⟩], []⟩ none)

def overloadedTable : ClassTable := ClassTable.empty.push overloadedClass

/-- An object with one field. -/
def widthHeap : Heap := ⟨#[⟨⟨0⟩, .plain [(⟨"x", .base .long⟩, .long 1)]⟩]⟩

/-- The first of the two methods is found, and only as a static one. Writing the field `x:I` leaves
the field `x:J` as it is. No override has these texts. -/
theorem overloadedTable_told_by_texts :
    (overloadedTable.get? ⟨0⟩ = some overloadedClass ∧
      MethodKey.parse "f" "()V" = .ok ⟨"f", ⟨[], .base .void⟩⟩ ∧
      MethodKey.parse "f" "(I)V" = .ok ⟨"f", ⟨[.base .int], .base .void⟩⟩ ∧
      FieldKey.parse "x" "I" = .ok ⟨"x", .base .int⟩ ∧
      FieldKey.parse "x" "J" = .ok ⟨"x", .base .long⟩) ∧
    overloadedTable.method? .static ⟨0⟩ ⟨"f", ⟨[], .base .void⟩⟩ =
      some ⟨⟨0⟩, ⟨"f", ⟨[], .base .void⟩⟩, 8⟩ ∧
    overloadedTable.method? .nonStatic ⟨0⟩ ⟨"f", ⟨[], .base .void⟩⟩ = none ∧
    (⟨"f", ⟨[], .base .void⟩⟩ : MethodKey) ≠ ⟨"f", ⟨[.base .int], .base .void⟩⟩ ∧
    (∀ value, (overloadedTable.setStatic ⟨0⟩ ⟨"x", .base .int⟩ value).getStatic? ⟨0⟩
      ⟨"x", .base .long⟩ = none) ∧
    (∃ heap, widthHeap.setField overloadedTable ⟨0⟩ ⟨"x", .base .int⟩ (.int 2) = .ok heap ∧
      (heap.get? ⟨0⟩).bind (·.field? ⟨"x", .base .long⟩) = some (.long 1)) ∧
    (⟨[.system]⟩ : Overrides).find? "java/lang/System" ⟨"f", ⟨[], .base .void⟩⟩ = none := by
  obtain ⟨hfound, hmethods, hfields, hoverrides⟩ := members_told_by_texts
  have hget : overloadedTable.get? ⟨0⟩ = some overloadedClass := by rfl
  have hcall : MethodKey.parse "f" "()V" = .ok ⟨"f", ⟨[], .base .void⟩⟩ :=
    MethodKey.parse_eq_ok_iff.mpr (by decide)
  have hcallInt : MethodKey.parse "f" "(I)V" = .ok ⟨"f", ⟨[.base .int], .base .void⟩⟩ :=
    MethodKey.parse_eq_ok_iff.mpr (by decide)
  have hint : FieldKey.parse "x" "I" = .ok ⟨"x", .base .int⟩ := by rfl
  have hlong : FieldKey.parse "x" "J" = .ok ⟨"x", .base .long⟩ := by rfl
  have hlookup := hfound _ _ _ _ _ _ hget hcall
  have hany : overloadedTable.method? .any ⟨0⟩ ⟨"f", ⟨[], .base .void⟩⟩ =
      some ⟨⟨0⟩, ⟨"f", ⟨[], .base .void⟩⟩, 8⟩ :=
    (hlookup.some_iff _).mpr ⟨⟨8, "f", "()V", []⟩,
      ⟨⟨rfl, rfl⟩, [⟨0, "f", "(I)V", []⟩], _, rfl, by decide⟩, rfl⟩
  have hkind : overloadedTable.method? .static ⟨0⟩ ⟨"f", ⟨[], .base .void⟩⟩ =
        some ⟨⟨0⟩, ⟨"f", ⟨[], .base .void⟩⟩, 8⟩ ∧
      overloadedTable.method? .nonStatic ⟨0⟩ ⟨"f", ⟨[], .base .void⟩⟩ = none := by
    rcases hlookup.kind _ hany with hstatic | ⟨hstatic, -⟩
    · exact hstatic
    · exact absurd hstatic (by decide)
  obtain ⟨-, hstatics, hobjects⟩ := hfields _ _ _ _ _ _ hint hlong
  refine ⟨⟨hget, hcall, hcallInt, hint, hlong⟩, hkind.1, hkind.2, fun heq => ?_,
    fun value => ?_, ⟨_, rfl, ?_⟩, ?_⟩
  · exact absurd ((hmethods _ _ _ _ _ _ hcall hcallInt).mp heq).2 (by decide)
  · rw [hstatics _ _ _ value hget]
    rfl
  · rw [hobjects widthHeap _ overloadedTable ⟨0⟩ (.int 2) rfl]
    rfl
  · rw [hoverrides _ _ _ _ _ hcall]
    decide

end ClassHost
