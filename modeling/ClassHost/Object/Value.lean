import ClassHost.Descriptor.Basic

/-!
# Values

What fields, array elements, arguments and results hold. Objects and classes are referred to by
their place in the heap and in the class table, so that two values are the same object exactly
when their references are equal. Floating point values are kept as their bits.
-/

namespace ClassHost

/-- A class, by its place in the class table. -/
structure ClassId where
  index : Nat
  deriving Repr, DecidableEq, Inhabited

/-- An object, by its place in the heap. -/
structure ObjectId where
  index : Nat
  deriving Repr, DecidableEq, Inhabited

/-- What a variable can hold. -/
inductive Value where
  | null
  | int (value : Int32)
  | long (value : Int64)
  | float (bits : UInt32)
  | double (bits : UInt64)
  | object (id : ObjectId)
  deriving Repr, DecidableEq, Inhabited

/-- What a variable of a primitive type holds at first. -/
def Value.default (type : BaseType) : Value :=
  match type.widened with
  | .long => .long 0
  | .float => .float 0
  | .double => .double 0
  | _ => .int 0

end ClassHost
