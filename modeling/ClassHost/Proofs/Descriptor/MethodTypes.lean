import ClassHost.Proofs.Descriptor.FieldTypes
import Mathlib.Data.List.Forall2

/-!
# Method types and their texts

The descriptor of a method is a row of field descriptors in parentheses and one more behind them,
with nothing in between. A class name may hold parentheses itself, so the row cannot be cut up by
looking for characters; it can because each field descriptor says where it ends, and because none of
them begins with a closing parenthesis.

`MethodType.Segments` says how a text is cut up. `MethodType.segments_iff` ties the cuts of a text
to the well-formed types that write it, so that what is known about reading and writing types
carries over to cuts: there is at most one (`MethodType.parse_iff_segments`).
-/

namespace ClassHost.MethodType

/-- A text is the descriptors of parameters in parentheses and that of a result. -/
structure Segments (text : String) (parameters : List String) (result : String) : Prop where
  parameters_fields : ∀ parameter ∈ parameters, IsFieldText parameter ∧ parameter ≠ "V"
  result_field : IsFieldText result
  text_eq : text = "(" ++ String.join parameters ++ ")" ++ result

/-- All types of the method have a text, and no parameter is void. -/
structure WellFormed (type : MethodType) : Prop where
  parameters : ∀ parameter ∈ type.parameters, parameter.WellFormed ∧ parameter ≠ .base .void
  result : type.result.WellFormed

variable {cs rest : List Char} {types : List FieldType} {type : MethodType}

-- ---------------------------------------------------------------------------
-- Reading what is written
-- ---------------------------------------------------------------------------

/-- The texts of types in a row are read as these types, up to the closing parenthesis. -/
theorem readParameters_flatMap
    (h : ∀ type ∈ types, FieldType.WellFormed type ∧ type ≠ .base .void) (rest : List Char)
    (done : List FieldType) :
    readParameters (types.flatMap FieldType.chars ++ ')' :: rest) done =
      .ok (done.reverse ++ types, rest) := by
  induction types generalizing done with
  | nil =>
    rw [List.flatMap_nil, List.nil_append, readParameters, List.append_nil]
  | cons type types ih =>
    obtain ⟨⟨hwell, hvoid⟩, htypes⟩ := List.forall_mem_cons.mp h
    -- the reader looks at the first letter only, and no type starts with the closing parenthesis
    obtain ⟨first, others, hcons, hfirst⟩ := type.exists_chars_eq_cons
    have hread := FieldType.read_chars hwell (types.flatMap FieldType.chars ++ ')' :: rest)
    rw [List.flatMap_cons, List.append_assoc]
    rw [hcons, List.cons_append] at hread ⊢
    rw [readParameters]
    · split
      · rename_i heq
        rw [hread] at heq
        cases heq
      · rename_i heq
        rw [hread] at heq
        obtain ⟨rfl, rfl⟩ := Prod.mk.inj (Except.ok.inj heq)
        rw [if_neg hvoid, ih htypes, List.reverse_cons, List.append_assoc, List.singleton_append]
    · exact hfirst

/-- Types that were read up to a closing parenthesis are well-formed and not void, and their texts
in a row are what was taken off. -/
theorem eq_flatMap_of_readParameters {done all : List FieldType}
    (h : readParameters cs done = .ok (all, rest)) :
    ∃ types, (∀ type ∈ types, FieldType.WellFormed type ∧ type ≠ .base .void) ∧
      all = done.reverse ++ types ∧ cs = types.flatMap FieldType.chars ++ ')' :: rest := by
  fun_induction readParameters cs done with
  | case1 => cases h
  | case2 done behind =>
    obtain ⟨rfl, rfl⟩ := Prod.mk.inj (Except.ok.inj h)
    exact ⟨[], nofun, by rw [List.append_nil], rfl⟩
  | case3 => cases h
  | case4 => cases h
  | case5 done c cs _ type behind hread hvoid ih =>
    obtain ⟨hwell, hcs⟩ := FieldType.eq_chars_of_read hread
    obtain ⟨types, htypes, rfl, rfl⟩ := ih h
    refine ⟨type :: types, List.forall_mem_cons.mpr ⟨⟨hwell, hvoid⟩, htypes⟩, ?_, ?_⟩
    · rw [List.reverse_cons, List.append_assoc, List.singleton_append]
    · rw [hcs, List.flatMap_cons, List.append_assoc]

theorem read_chars (h : type.WellFormed) : read type.chars = .ok type := by
  have hparameters := readParameters_flatMap h.parameters type.result.chars []
  have hresult := FieldType.read_chars h.result []
  rw [List.append_nil] at hresult
  rw [chars, List.cons_append, read, hparameters]
  change (FieldType.read type.result.chars >>= _) = _
  rw [hresult]
  rfl

theorem eq_chars_of_read (h : read cs = .ok type) : type.WellFormed ∧ cs = type.chars := by
  unfold read at h
  split at h
  · rename_i inside
    cases hparameters : readParameters inside [] with
    | error reason =>
      rw [hparameters] at h
      cases h
    | ok row =>
      obtain ⟨parameters, behind⟩ := row
      rw [hparameters] at h
      change (FieldType.read behind >>= _) = _ at h
      cases hresult : FieldType.read behind with
      | error reason =>
        rw [hresult] at h
        cases h
      | ok field =>
        rw [hresult] at h
        -- nothing may be left behind the result
        obtain ⟨result, _ | ⟨first, others⟩⟩ := field
        · obtain rfl := Except.ok.inj h
          obtain ⟨types, htypes, rfl, rfl⟩ := eq_flatMap_of_readParameters hparameters
          obtain ⟨hwell, rfl⟩ := FieldType.eq_chars_of_read hresult
          exact ⟨⟨htypes, hwell⟩, by rw [List.append_nil]; rfl⟩
        · cases h
  · cases h

/-- **Reading a method type** accepts the texts of the well-formed ones. -/
theorem parse_eq_ok_iff {text : String} :
    parse text = .ok type ↔ type.WellFormed ∧ type.text = text := by
  have hwhole : parse text = .ok type ↔ read text.toList = .ok type := by
    unfold parse
    split <;> simp_all
  rw [hwhole]
  constructor
  · intro h
    obtain ⟨hwell, hchars⟩ := eq_chars_of_read h
    exact ⟨hwell, by rw [MethodType.text, ← hchars, String.ofList_toList]⟩
  · rintro ⟨hwell, rfl⟩
    rw [MethodType.text, String.toList_ofList]
    exact read_chars hwell

-- ---------------------------------------------------------------------------
-- Cutting a text up
-- ---------------------------------------------------------------------------

theorem text_eq (type : MethodType) :
    type.text = "(" ++ String.join (type.parameters.map FieldType.text) ++ ")" ++
      type.result.text := by
  have hjoin : (String.join (type.parameters.map FieldType.text)).toList =
      type.parameters.flatMap FieldType.chars := by
    simp only [String.toList_join, List.flatMap_map, FieldType.toList_text]
  rw [← String.toList_inj]
  simp [text, chars, hjoin]

/-- Descriptors of parameters, one for one, are the texts of well-formed types. -/
theorem exists_map_text {parameters : List String}
    (h : ∀ parameter ∈ parameters, IsFieldText parameter ∧ parameter ≠ "V") :
    ∃ types : List FieldType, (∀ type ∈ types, type.WellFormed ∧ type ≠ .base .void) ∧
      parameters = types.map FieldType.text := by
  induction parameters with
  | nil => exact ⟨[], nofun, rfl⟩
  | cons parameter parameters ih =>
    obtain ⟨⟨hfield, hvoid⟩, hparameters⟩ := List.forall_mem_cons.mp h
    obtain ⟨type, hwell, rfl⟩ := isFieldText_iff.mp hfield
    obtain ⟨types, htypes, rfl⟩ := ih hparameters
    have htype : type ≠ .base .void := fun heq => hvoid (FieldType.text_eq_void_iff.mpr heq)
    exact ⟨type :: types, List.forall_mem_cons.mpr ⟨⟨hwell, htype⟩, htypes⟩, rfl⟩

/-- A text is cut up as a well-formed type that writes it says, and in no other way. -/
theorem segments_iff {text result : String} {parameters : List String} :
    Segments text parameters result ↔ ∃ type : MethodType, type.WellFormed ∧ type.text = text ∧
      parameters = type.parameters.map FieldType.text ∧ result = type.result.text := by
  constructor
  · rintro ⟨hparameters, hresult, rfl⟩
    obtain ⟨types, htypes, rfl⟩ := exists_map_text hparameters
    obtain ⟨last, hlast, rfl⟩ := isFieldText_iff.mp hresult
    exact ⟨⟨types, last⟩, ⟨htypes, hlast⟩, text_eq _, rfl, rfl⟩
  · rintro ⟨type, hwell, rfl, rfl, rfl⟩
    refine ⟨fun parameter hmem => ?_, ?_, text_eq type⟩
    · obtain ⟨field, hfield, rfl⟩ := List.mem_map.mp hmem
      obtain ⟨hfieldWell, hvoid⟩ := hwell.parameters field hfield
      exact ⟨isFieldText_iff.mpr ⟨field, hfieldWell, rfl⟩,
        fun heq => hvoid (FieldType.text_eq_void_iff.mp heq)⟩
    · exact isFieldText_iff.mpr ⟨type.result, hwell.result, rfl⟩

/-- **Method descriptors.** A text is accepted exactly if it can be cut up into descriptors of
parameters and of a result. It can then be cut up in one way only, parameters and result are the
types of the pieces, in order, and the type that was read writes the text again; and every
well-formed type is read back from what it writes. -/
theorem parse_iff_segments :
    (∀ text, (∃ type, parse text = .ok type) ↔
      ∃ parameters result, Segments text parameters result) ∧
    (∀ text parameters result parameters' result', Segments text parameters result →
      Segments text parameters' result' → parameters = parameters' ∧ result = result') ∧
    (∀ text parameters result type, Segments text parameters result → parse text = .ok type →
      List.Forall₂ (fun piece field => FieldType.parse piece = .ok field)
        parameters type.parameters ∧
      FieldType.parse result = .ok type.result ∧ type.text = text) ∧
    ∀ type : MethodType, type.WellFormed → parse type.text = .ok type := by
  -- a text is written by one well-formed type at most: the one that it is read as
  have hunique : ∀ type type' : MethodType, type.WellFormed → type'.WellFormed →
      type.text = type'.text → type = type' := by
    intro type type' hwell hwell' htext
    have hparse := parse_eq_ok_iff.mpr ⟨hwell, htext⟩
    rw [parse_eq_ok_iff.mpr ⟨hwell', rfl⟩] at hparse
    exact (Except.ok.inj hparse).symm
  refine ⟨fun text => ⟨?_, ?_⟩, ?_, ?_, fun type hwell => parse_eq_ok_iff.mpr ⟨hwell, rfl⟩⟩
  · rintro ⟨type, hparse⟩
    obtain ⟨hwell, htext⟩ := parse_eq_ok_iff.mp hparse
    exact ⟨_, _, segments_iff.mpr ⟨type, hwell, htext, rfl, rfl⟩⟩
  · rintro ⟨parameters, result, hsegments⟩
    obtain ⟨type, hwell, htext, -, -⟩ := segments_iff.mp hsegments
    exact ⟨type, parse_eq_ok_iff.mpr ⟨hwell, htext⟩⟩
  · intro text parameters result parameters' result' hsegments hsegments'
    obtain ⟨type, hwell, htext, rfl, rfl⟩ := segments_iff.mp hsegments
    obtain ⟨type', hwell', htext', rfl, rfl⟩ := segments_iff.mp hsegments'
    obtain rfl := hunique type type' hwell hwell' (htext.trans htext'.symm)
    exact ⟨rfl, rfl⟩
  · intro text parameters result type hsegments hparse
    obtain ⟨hwell, htext⟩ := parse_eq_ok_iff.mp hparse
    obtain ⟨type', hwell', htext', rfl, rfl⟩ := segments_iff.mp hsegments
    obtain rfl := hunique type type' hwell hwell' (htext.trans htext'.symm)
    refine ⟨?_, FieldType.parse_eq_ok_iff.mpr ⟨hwell.result, rfl⟩, htext⟩
    rw [List.forall₂_map_left_iff, List.forall₂_same]
    intro field hfield
    exact FieldType.parse_eq_ok_iff.mpr ⟨(hwell.parameters field hfield).1, rfl⟩

/-- A method with parameters of classes whose names hold parentheses. -/
def oddMethod : MethodType :=
  ⟨[.object "(I)V", .array (.base .long), .object "a)"], .base .void⟩

/-- The parentheses inside the names do not end the row of parameters. -/
theorem oddMethod_parsed :
    (oddMethod.WellFormed ∧ parse "(L(I)V;[JLa);)V" = .ok oddMethod ∧
      Segments "(L(I)V;[JLa);)V" ["L(I)V;", "[J", "La);"] "V") ∧
    (∀ parameters result, Segments "(L(I)V;[JLa);)V" parameters result →
      parameters = ["L(I)V;", "[J", "La);"] ∧ result = "V") ∧
    List.Forall₂ (fun piece field => FieldType.parse piece = .ok field)
      ["L(I)V;", "[J", "La);"] oddMethod.parameters ∧
    FieldType.parse "V" = .ok oddMethod.result ∧ oddMethod.text = "(L(I)V;[JLa);)V" := by
  obtain ⟨-, hunique, hpieces, hreads⟩ := parse_iff_segments
  have hwell : oddMethod.WellFormed := ⟨by decide, by decide⟩
  have hparse : parse "(L(I)V;[JLa);)V" = .ok oddMethod := hreads oddMethod hwell
  have hsegments : Segments "(L(I)V;[JLa);)V" ["L(I)V;", "[J", "La);"] "V" :=
    segments_iff.mpr ⟨oddMethod, hwell, rfl, rfl, rfl⟩
  refine ⟨⟨hwell, hparse, hsegments⟩, fun parameters result h => ?_,
    hpieces _ _ _ _ hsegments hparse⟩
  exact hunique _ _ _ _ _ h hsegments

end ClassHost.MethodType
