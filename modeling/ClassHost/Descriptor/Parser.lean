import ClassHost.Descriptor.Basic

/-!
# Reading descriptors

`FieldType.read` takes one type off the front of a text, by recursion on the brackets in front of
it; `MethodType.readParameters` takes types up to the closing parenthesis, and ends because each
leaves a shorter text (`FieldType.length_lt_of_read`). The `parse` functions ask for a whole text.
-/

namespace ClassHost

namespace FieldType

/-- Takes one type, which may be `void`, off the front. -/
def read : List Char → Except DescriptorReason (FieldType × List Char)
  | [] => .error .endOfDescriptor
  | c :: rest =>
    match BaseType.ofCode? c with
    | some type => .ok (base type, rest)
    | none =>
      if c = 'V' then .ok (base .void, rest)
      else if c = '[' then
        match read rest with
        | .error reason => .error reason
        | .ok (element, rest) =>
          if element = base .void then .error .arrayOfVoid else .ok (array element, rest)
      else if c = 'L' then
        match rest.dropWhile (· ≠ ';') with
        | [] => .error .unterminatedClassName
        | _ :: tail =>
          match rest.takeWhile (· ≠ ';') with
          | [] => .error .emptyClassName
          | name => .ok (object (String.ofList name), tail)
      else .error (.unknownType c)

/-- Reading a type uses up at least one character. -/
theorem length_lt_of_read {cs rest : List Char} {type : FieldType}
    (h : read cs = .ok (type, rest)) : rest.length < cs.length := by
  induction cs generalizing type rest with
  | nil => simp [read] at h
  | cons c cs ih =>
    rw [read] at h
    split at h
    · simp at h; simp [h]
    · split at h
      · simp at h; simp [h]
      · split at h
        · split at h
          · simp at h
          · next hread =>
            split at h
            · simp at h
            · simp at h
              have := ih hread
              rw [← h.2]
              simp only [List.length_cons]
              omega
        · split at h
          · split at h
            · simp at h
            · next htail =>
              split at h
              · simp at h
              · simp at h
                have hle := (List.dropWhile_suffix (fun x => decide (x ≠ ';')) (l := cs)).length_le
                rw [htail] at hle
                rw [← h.2]
                simp only [List.length_cons] at hle ⊢
                omega
          · simp at h

/-- The type that a whole text describes. -/
def parse (text : String) : Except DescriptorError FieldType :=
  match read text.toList with
  | .error reason => .error ⟨text, reason⟩
  | .ok (type, []) => .ok type
  | .ok (_, _ :: _) => .error ⟨text, .trailingCharacters⟩

end FieldType

namespace MethodType

/-- Takes parameter types and the closing parenthesis off the front; those read before are in
`read`, in reverse. -/
def readParameters (cs : List Char) (read : List FieldType) :
    Except DescriptorReason (List FieldType × List Char) :=
  match cs with
  | [] => .error .unterminatedParameterList
  | ')' :: rest => .ok (read.reverse, rest)
  | c :: cs =>
    match _ : FieldType.read (c :: cs) with
    | .error reason => .error reason
    | .ok (type, rest) =>
      if type = .base .void then .error .voidParameter else readParameters rest (type :: read)
termination_by cs.length
decreasing_by exact FieldType.length_lt_of_read (by assumption)

/-- Takes a whole method type off the front. -/
def read (cs : List Char) : Except DescriptorReason MethodType :=
  match cs with
  | '(' :: rest => do
    let (parameters, rest) ← readParameters rest []
    match ← FieldType.read rest with
    | (result, []) => .ok ⟨parameters, result⟩
    | (_, _ :: _) => .error .trailingAfterResult
  | _ => .error .noParameterList

/-- The method type that a whole text describes. -/
def parse (text : String) : Except DescriptorError MethodType :=
  match read text.toList with
  | .error reason => .error ⟨text, reason⟩
  | .ok type => .ok type

end MethodType

/-- A field key from a name and a descriptor. -/
def FieldKey.parse (name descriptor : String) : Except DescriptorError FieldKey := do
  return ⟨name, ← FieldType.parse descriptor⟩

/-- A method key from a name and a descriptor. -/
def MethodKey.parse (name descriptor : String) : Except DescriptorError MethodKey := do
  return ⟨name, ← MethodType.parse descriptor⟩

end ClassHost
