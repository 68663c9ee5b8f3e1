import ClassHost.Descriptor.Basic

/-!
# Load plans

What a loader has to produce for a name. A name that starts with no bracket is a class name and
taken as it is; `[[I` asks for a two-dimensional array whose elements are arrays `[I`.

`resolve` reads the innermost element once; the plan is a chain of levels down to it, one for each
bracket.
-/

namespace ClassHost

/-- The array classes for one descriptor, outermost first, down to the component. -/
inductive ArrayPlan (Component : Type) where
  /-- A one-dimensional array of components. -/
  | last (descriptor : String) (component : Component)
  /-- An array of arrays. -/
  | level (descriptor : String) (inner : ArrayPlan Component)
  deriving Repr, DecidableEq

namespace ArrayPlan

variable {Component : Type}

/-- The descriptor of the outermost array. -/
def descriptor : ArrayPlan Component → String
  | last descriptor _ => descriptor
  | level descriptor _ => descriptor

/-- The number of levels. -/
def dimension : ArrayPlan Component → Nat
  | last _ _ => 1
  | level _ inner => inner.dimension + 1

/-- What the innermost array holds. -/
def component : ArrayPlan Component → Component
  | last _ component => component
  | level _ inner => inner.component

/-- Dimension and descriptor of every level, outermost first. -/
def levels : ArrayPlan Component → List (Nat × String)
  | last descriptor _ => [(1, descriptor)]
  | level descriptor inner => (inner.dimension + 1, descriptor) :: inner.levels

/-- The plan for `outer + 1` brackets in front of an element's descriptor. -/
def build (element : String) (component : Component) : Nat → ArrayPlan Component
  | 0 => last ("[" ++ element) component
  | outer + 1 =>
    let inner := build element component outer
    level ("[" ++ inner.descriptor) inner

end ArrayPlan

/-- What to load for a name. -/
inductive LoadPlan where
  | instanceClass (name : String)
  | objectArray (plan : ArrayPlan String)
  | primitiveArray (plan : ArrayPlan BaseType)
  deriving Repr, DecidableEq

namespace LoadPlan

/-- The name that was asked for. -/
def name : LoadPlan → String
  | instanceClass name => name
  | objectArray plan => plan.descriptor
  | primitiveArray plan => plan.descriptor

/-- Arrays have at most this many dimensions. -/
def maxDimensions : Nat := 255

/-- The class name between `L` and a final semicolon. -/
def componentName (cs : List Char) : Except DescriptorReason String :=
  if cs.getLast? ≠ some ';' then .error .unterminatedClassName
  else if cs.dropLast.isEmpty then .error .emptyClassName
  else if ';' ∈ cs.dropLast ∨ '[' ∈ cs.dropLast then .error .malformedClassName
  else .ok (String.ofList cs.dropLast)

/-- The plan for an array of `outer + 1` dimensions with this element. -/
def ofElement (outer : Nat) (element : List Char) : Except DescriptorReason LoadPlan :=
  match element with
  | [] => .error .noElementType
  | 'L' :: rest => do
    let name ← componentName rest
    return objectArray (.build (String.ofList element) name outer)
  | [code] =>
    match BaseType.ofCode? code with
    | some type => .ok (primitiveArray (.build (String.ofList element) type outer))
    | none => .error .unknownPrimitive
  | _ :: _ :: _ => .error .trailingAfterPrimitive

/-- The plan for the characters of a name. -/
def ofChars (cs : List Char) : Except DescriptorReason LoadPlan :=
  if cs.isEmpty then .error .emptyClassName
  else
    match (cs.takeWhile (· = '[')).length with
    | 0 => .ok (instanceClass (String.ofList cs))
    | outer + 1 =>
      if outer + 1 > maxDimensions then .error .tooManyDimensions
      else ofElement outer (cs.dropWhile (· = '['))

/-- The plan for a name. -/
def resolve (name : String) : Except DescriptorError LoadPlan :=
  match ofChars name.toList with
  | .ok plan => .ok plan
  | .error reason => .error ⟨name, reason⟩

end LoadPlan

end ClassHost
