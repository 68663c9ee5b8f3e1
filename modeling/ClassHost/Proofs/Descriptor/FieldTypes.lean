import ClassHost.Descriptor.Parser

/-!
# Field types and their texts

`FieldType.read` and `FieldType.chars` are recursions of their own: one walks a text and stops where
a type ends, the other walks a type. What joins them is that a type says where it ends. A letter is
one character, a class name ends at the first semicolon and holds none, and brackets are followed by
a type. So reading takes a text off the front of another, whatever comes behind it, exactly if that
text is written from a well-formed type (`FieldType.read_eq_ok_iff`): this is the fact that
parameter lists, which are types in a row, rest on.

* `IsFieldText` is the grammar of field descriptors, which mentions neither reading nor types.
* `FieldType.WellFormed` holds of the types that have a text: no array of void, no class name that
  would end too early.
* `isFieldText_iff`: the texts of the grammar are those of the well-formed types.
* `FieldType.parse_iff_isFieldText`: reading accepts the grammar, and writing undoes it.
-/

namespace ClassHost

/-- The number of brackets that a name begins with. -/
def leadingBrackets (name : String) : Nat := (name.toList.takeWhile (· = '[')).length

/-- The descriptors of fields, and `V` for results. -/
inductive IsFieldText : String → Prop where
  | primitive {text : String} (h : text ∈ ["B", "C", "D", "F", "I", "J", "S", "Z"]) :
      IsFieldText text
  | void : IsFieldText "V"
  | object {name : String} (hne : name ≠ "") (hfree : ';' ∉ name.toList) :
      IsFieldText ("L" ++ name ++ ";")
  | array {element : String} (h : IsFieldText element) (hvoid : element ≠ "V") :
      IsFieldText ("[" ++ element)

-- ---------------------------------------------------------------------------
-- Letters
-- ---------------------------------------------------------------------------

namespace BaseType

/-- A letter that stands for a type is the code of that type, which is not `void`. -/
theorem code_of_ofCode? {letter : Char} {type : BaseType} (h : ofCode? letter = some type) :
    type.code = letter ∧ type ≠ .void := by
  unfold ofCode? at h
  split at h
  all_goals simp only [Option.some.injEq, reduceCtorEq] at h
  all_goals subst h; exact ⟨rfl, nofun⟩

/-- Every type but `void` is found by its code. -/
theorem ofCode?_code {type : BaseType} (h : type ≠ .void) : ofCode? type.code = some type := by
  cases type with
  | void => exact absurd rfl h
  | _ => rfl

theorem text_mem_of_ne_void {type : BaseType} (h : type ≠ .void) :
    type.text ∈ ["B", "C", "D", "F", "I", "J", "S", "Z"] := by
  cases type with
  | void => exact absurd rfl h
  | _ => decide

theorem exists_text_of_mem {text : String}
    (h : text ∈ ["B", "C", "D", "F", "I", "J", "S", "Z"]) :
    ∃ type : BaseType, type ≠ .void ∧ type.text = text := by
  simp only [List.mem_cons, List.not_mem_nil, or_false] at h
  rcases h with rfl | rfl | rfl | rfl | rfl | rfl | rfl | rfl
  · exact ⟨byte, nofun, rfl⟩
  · exact ⟨char, nofun, rfl⟩
  · exact ⟨double, nofun, rfl⟩
  · exact ⟨float, nofun, rfl⟩
  · exact ⟨int, nofun, rfl⟩
  · exact ⟨long, nofun, rfl⟩
  · exact ⟨short, nofun, rfl⟩
  · exact ⟨boolean, nofun, rfl⟩

end BaseType

namespace FieldType

-- ---------------------------------------------------------------------------
-- Types that have a text
-- ---------------------------------------------------------------------------

/-- No array has void elements, and every class name can be told from what follows it. -/
def WellFormed : FieldType → Prop
  | base _ => True
  | object className => className ≠ "" ∧ ';' ∉ className.toList
  | array element => element ≠ base .void ∧ element.WellFormed

instance decidableWellFormed : (type : FieldType) → Decidable type.WellFormed
  | base _ => isTrue trivial
  | object className => inferInstanceAs (Decidable (className ≠ "" ∧ ';' ∉ className.toList))
  | array element =>
    have := decidableWellFormed element
    inferInstanceAs (Decidable (element ≠ base .void ∧ element.WellFormed))

@[simp] theorem toList_text (type : FieldType) : type.text.toList = type.chars :=
  String.toList_ofList

theorem text_object (className : String) : (object className).text = "L" ++ className ++ ";" := by
  rw [← String.toList_inj]
  simp [chars]

theorem text_array (element : FieldType) : (array element).text = "[" ++ element.text := by
  rw [← String.toList_inj]
  simp [chars]

theorem exists_chars_eq_cons (type : FieldType) :
    ∃ first rest, type.chars = first :: rest ∧ first ≠ ')' := by
  cases type with
  | base type => exact ⟨type.code, [], rfl, by cases type <;> decide⟩
  | object className => exact ⟨'L', className.toList ++ [';'], rfl, by decide⟩
  | array element => exact ⟨'[', element.chars, rfl, by decide⟩

/-- A text has as many leading brackets as its type has dimensions. -/
theorem leadingBrackets_text (type : FieldType) : leadingBrackets type.text = type.dimensions := by
  rw [leadingBrackets, toList_text]
  induction type with
  | base type => cases type <;> rfl
  | object className => rfl
  | array element ih => rw [chars, List.takeWhile_cons_of_pos (by decide), List.length_cons, ih,
      dimensions]

-- ---------------------------------------------------------------------------
-- Reading what is written
-- ---------------------------------------------------------------------------

theorem takeWhile_name {name : List Char} (h : ';' ∉ name) (rest : List Char) :
    (name ++ ';' :: rest).takeWhile (· ≠ ';') = name := by
  rw [List.takeWhile_append_of_pos, List.takeWhile_cons_of_neg (by simp), List.append_nil]
  intro c hc
  exact decide_eq_true fun heq => h (heq ▸ hc)

theorem dropWhile_name {name : List Char} (h : ';' ∉ name) (rest : List Char) :
    (name ++ ';' :: rest).dropWhile (· ≠ ';') = ';' :: rest := by
  rw [List.dropWhile_append_of_pos, List.dropWhile_cons_of_neg (by simp)]
  intro c hc
  exact decide_eq_true fun heq => h (heq ▸ hc)

/-- The text of a type is taken off the front, and what is behind it is left. -/
theorem read_chars {type : FieldType} (h : type.WellFormed) (rest : List Char) :
    read (type.chars ++ rest) = .ok (type, rest) := by
  induction type with
  | base type =>
    rw [chars, List.singleton_append, read]
    by_cases hvoid : type = .void
    · subst hvoid
      rfl
    · rw [BaseType.ofCode?_code hvoid]
  | object className =>
    obtain ⟨hne, hfree⟩ := h
    have hname : className.toList ≠ [] := by simpa using hne
    obtain ⟨first, others, hcons⟩ := List.exists_cons_of_ne_nil hname
    have htext : (object className).chars ++ rest =
        'L' :: (className.toList ++ ';' :: rest) := by simp [chars]
    have hcode : BaseType.ofCode? 'L' = none := rfl
    rw [htext, read, hcode]
    simp only [Char.reduceEq, if_false, if_true]
    -- the name has no semicolon, so it is cut off where it ends
    rw [dropWhile_name hfree, takeWhile_name hfree, hcons]
    dsimp only
    rw [← hcons, String.ofList_toList]
  | array element ih =>
    obtain ⟨hvoid, helement⟩ := h
    have hcode : BaseType.ofCode? '[' = none := rfl
    rw [chars, List.cons_append, read, hcode]
    simp only [Char.reduceEq, if_false, if_true]
    rw [ih helement]
    exact if_neg hvoid

/-- A text with a semicolon is a name without one, the semicolon and what follows it. -/
theorem eq_name_append {cs tail : List Char} {first : Char}
    (h : cs.dropWhile (· ≠ ';') = first :: tail) :
    ';' ∉ cs.takeWhile (· ≠ ';') ∧ cs = cs.takeWhile (· ≠ ';') ++ ';' :: tail := by
  have hfirst : first = ';' := by
    have := List.head?_dropWhile_not (· ≠ ';') cs
    rw [h] at this
    simpa using this
  subst hfirst
  have hall : ∀ c ∈ cs.takeWhile (· ≠ ';'), c ≠ ';' := fun c hc =>
    of_decide_eq_true (List.all_eq_true.mp List.all_takeWhile c hc)
  exact ⟨fun hmem => hall ';' hmem rfl, by rw [← h, List.takeWhile_append_dropWhile]⟩

/-- A type that was read is well-formed, and its text is what was taken off. -/
theorem eq_chars_of_read {cs rest : List Char} {type : FieldType}
    (h : read cs = .ok (type, rest)) : type.WellFormed ∧ cs = type.chars ++ rest := by
  -- the first letter decides between a base type, void, an array and an object
  induction cs generalizing type rest with
  | nil => simp [read] at h
  | cons c cs ih =>
    rw [read] at h
    split at h
    · rename_i letter hcode
      obtain ⟨rfl, rfl⟩ := Prod.mk.inj (Except.ok.inj h)
      exact ⟨trivial, by rw [chars, (BaseType.code_of_ofCode? hcode).1]; rfl⟩
    · split at h
      · rename_i hc
        obtain ⟨rfl, rfl⟩ := Prod.mk.inj (Except.ok.inj h)
        exact ⟨trivial, by rw [hc]; rfl⟩
      · split at h
        · rename_i hc
          split at h
          · cases h
          · rename_i element behind hread
            obtain ⟨helement, hcs⟩ := ih hread
            split at h
            · cases h
            · rename_i hvoid
              obtain ⟨rfl, rfl⟩ := Prod.mk.inj (Except.ok.inj h)
              exact ⟨⟨hvoid, helement⟩, by rw [hc, chars, hcs, List.cons_append]⟩
        · split at h
          · rename_i hc
            split at h
            · cases h
            · rename_i htail
              obtain ⟨hfree, hcs⟩ := eq_name_append htail
              split at h
              · cases h
              · rename_i hname
                obtain ⟨rfl, rfl⟩ := Prod.mk.inj (Except.ok.inj h)
                refine ⟨⟨fun hnil => hname ?_, by rwa [String.toList_ofList]⟩, ?_⟩
                · rw [← String.toList_ofList (l := cs.takeWhile _), hnil]
                  rfl
                · rw [hc, chars, String.toList_ofList]
                  simpa using hcs
          · cases h

/-- **Reading a type** takes the text of a well-formed type off the front, and fails otherwise. -/
theorem read_eq_ok_iff {cs rest : List Char} {type : FieldType} :
    read cs = .ok (type, rest) ↔ type.WellFormed ∧ cs = type.chars ++ rest := by
  constructor
  · exact eq_chars_of_read
  · rintro ⟨hwell, rfl⟩
    exact read_chars hwell rest

theorem parse_eq_ok_iff {text : String} {type : FieldType} :
    parse text = .ok type ↔ type.WellFormed ∧ type.text = text := by
  have hwhole : parse text = .ok type ↔ read text.toList = .ok (type, []) := by
    unfold parse
    split <;> simp_all
  rw [hwhole, read_eq_ok_iff, List.append_nil, ← toList_text, String.toList_inj,
    eq_comm (a := text)]

-- ---------------------------------------------------------------------------
-- The grammar
-- ---------------------------------------------------------------------------

theorem text_eq_void_iff {type : FieldType} : type.text = "V" ↔ type = base .void := by
  rw [← String.toList_inj, toList_text]
  cases type with
  | base type => cases type <;> decide
  | object className => simp [chars]
  | array element => simp [chars]

end FieldType

/-- The grammar describes the texts of well-formed types. -/
theorem isFieldText_iff {text : String} :
    IsFieldText text ↔ ∃ type : FieldType, type.WellFormed ∧ type.text = text := by
  constructor
  · intro h
    induction h with
    | primitive h =>
      obtain ⟨type, -, rfl⟩ := BaseType.exists_text_of_mem h
      exact ⟨.base type, trivial, rfl⟩
    | void => exact ⟨.base .void, trivial, rfl⟩
    | @object name hne hfree => exact ⟨.object name, ⟨hne, hfree⟩, FieldType.text_object name⟩
    | array _ hvoid ih =>
      obtain ⟨element, hwell, rfl⟩ := ih
      -- the grammar bars arrays of void by their text, the types by their element
      have helement : element ≠ .base .void := fun heq =>
        hvoid (FieldType.text_eq_void_iff.mpr heq)
      exact ⟨.array element, ⟨helement, hwell⟩, FieldType.text_array element⟩
  · rintro ⟨type, hwell, rfl⟩
    induction type with
    | base type =>
      by_cases hvoid : type = .void
      · subst hvoid
        exact .void
      · exact .primitive (BaseType.text_mem_of_ne_void hvoid)
    | object className =>
      rw [FieldType.text_object]
      exact .object hwell.1 hwell.2
    | array element ih =>
      rw [FieldType.text_array]
      exact .array (ih hwell.2) fun heq => hwell.1 (FieldType.text_eq_void_iff.mp heq)

/-- **Field descriptors.** Exactly the texts of the grammar are accepted. The type that a text is
read as writes that text again and has a dimension for each leading bracket; and every well-formed
type is read back from what it writes. -/
theorem FieldType.parse_iff_isFieldText :
    (∀ text, (∃ type, parse text = .ok type) ↔ IsFieldText text) ∧
    (∀ text type, parse text = .ok type →
      type.text = text ∧ type.dimensions = leadingBrackets text) ∧
    ∀ type : FieldType, type.WellFormed → parse type.text = .ok type := by
  refine ⟨fun text => ?_, fun text type h => ?_, fun type hwell => ?_⟩
  · simp only [parse_eq_ok_iff, isFieldText_iff]
  · obtain ⟨-, rfl⟩ := parse_eq_ok_iff.mp h
    exact ⟨rfl, (leadingBrackets_text type).symm⟩
  · exact parse_eq_ok_iff.mpr ⟨hwell, rfl⟩

/-- Arrays of arrays of a class whose name looks like the descriptor of a method. -/
def oddMatrix : FieldType := .array (.array (.object "a[(V)"))

/-- Nothing in the name of a class is taken for anything else. -/
theorem oddMatrix_parsed :
    (oddMatrix.WellFormed ∧ FieldType.parse "[[La[(V);" = .ok oddMatrix) ∧
    IsFieldText "[[La[(V);" ∧ oddMatrix.text = "[[La[(V);" ∧
    oddMatrix.dimensions = leadingBrackets "[[La[(V);" := by
  obtain ⟨haccepts, hwrites, hreads⟩ := FieldType.parse_iff_isFieldText
  have hwell : oddMatrix.WellFormed := by decide
  have hparse : FieldType.parse "[[La[(V);" = .ok oddMatrix := hreads oddMatrix hwell
  exact ⟨⟨hwell, hparse⟩, (haccepts _).mp ⟨_, hparse⟩, hwrites _ _ hparse⟩

end ClassHost
