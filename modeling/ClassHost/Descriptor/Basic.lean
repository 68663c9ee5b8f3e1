/-!
# Descriptors

A field descriptor names a type, a method descriptor the types of parameters and result:

    field   ::=  'B' | 'C' | 'D' | 'F' | 'I' | 'J' | 'S' | 'Z'  |  'L' name ';'  |  '[' field
    method  ::=  '(' field* ')' (field | 'V')

`FieldType.text` and `MethodType.text` write a type in this form. A `FieldKey` or `MethodKey` is a
name with a type and identifies a member of a class.
-/

namespace ClassHost

/-- The primitive types, with `void` for methods that return nothing. -/
inductive BaseType where
  | boolean
  | char
  | float
  | double
  | byte
  | short
  | int
  | long
  | void
  deriving Repr, DecidableEq, Inhabited

namespace BaseType

/-- The letter of a type. -/
def code : BaseType → Char
  | boolean => 'Z'
  | char => 'C'
  | float => 'F'
  | double => 'D'
  | byte => 'B'
  | short => 'S'
  | int => 'I'
  | long => 'J'
  | void => 'V'

/-- The type of a letter. Values have no type `void`, so its letter is not one of them. -/
def ofCode? : Char → Option BaseType
  | 'Z' => some boolean
  | 'C' => some char
  | 'F' => some float
  | 'D' => some double
  | 'B' => some byte
  | 'S' => some short
  | 'I' => some int
  | 'J' => some long
  | _ => none

/-- The type that values take on the operand stack, where everything narrower is an `int`. -/
def widened : BaseType → BaseType
  | boolean | char | byte | short => int
  | type => type

/-- The letter as a text. -/
def text (type : BaseType) : String := String.singleton type.code

end BaseType

/-- The type of a field, parameter or result. -/
inductive FieldType where
  | base (type : BaseType)
  | object (className : String)
  | array (element : FieldType)
  deriving Repr, DecidableEq, Inhabited

namespace FieldType

/-- The descriptor, as characters. -/
def chars : FieldType → List Char
  | base type => [type.code]
  | object className => 'L' :: className.toList ++ [';']
  | array element => '[' :: element.chars

/-- The descriptor. -/
def text (type : FieldType) : String := String.ofList type.chars

/-- How many arrays are nested around the innermost element. -/
def dimensions : FieldType → Nat
  | array element => element.dimensions + 1
  | _ => 0

/-- The innermost element. -/
def innermost : FieldType → FieldType
  | array element => element.innermost
  | type => type

end FieldType

/-- The parameters and the result of a method. -/
structure MethodType where
  parameters : List FieldType
  result : FieldType
  deriving Repr, DecidableEq, Inhabited

namespace MethodType

/-- The descriptor, as characters. -/
def chars (type : MethodType) : List Char :=
  '(' :: type.parameters.flatMap FieldType.chars ++ ')' :: type.result.chars

/-- The descriptor. -/
def text (type : MethodType) : String := String.ofList type.chars

end MethodType

/-- What a field is found by. -/
structure FieldKey where
  name : String
  type : FieldType
  deriving Repr, DecidableEq, Inhabited

/-- Name and type, with a colon between them. -/
def FieldKey.text (key : FieldKey) : String := key.name ++ ":" ++ key.type.text

/-- What a method is found by. -/
structure MethodKey where
  name : String
  type : MethodType
  deriving Repr, DecidableEq, Inhabited

/-- Name and type. -/
def MethodKey.text (key : MethodKey) : String := key.name ++ key.type.text

/-- Why a text is no descriptor. -/
inductive DescriptorReason where
  | endOfDescriptor
  | arrayOfVoid
  | unterminatedClassName
  | emptyClassName
  | unknownType (letter : Char)
  | trailingCharacters
  | noParameterList
  | unterminatedParameterList
  | voidParameter
  | trailingAfterResult
  | tooManyDimensions
  | malformedClassName
  | trailingAfterPrimitive
  | unknownPrimitive
  | noElementType
  /-- A reason that a program gives for a fault of its own making. -/
  | other (text : String)
  deriving Repr, DecidableEq

namespace DescriptorReason

/-- The reason in words. -/
def message : DescriptorReason → String
  | endOfDescriptor => "unexpected end of descriptor"
  | arrayOfVoid => "array of void"
  | unterminatedClassName => "unterminated class name"
  | emptyClassName => "empty class name"
  | unknownType letter => "unknown type " ++ String.singleton letter
  | trailingCharacters => "trailing characters"
  | noParameterList => "method descriptor did not start with ("
  | unterminatedParameterList => "unterminated parameter list"
  | voidParameter => "void is not a valid parameter type"
  | trailingAfterResult => "trailing characters after return type"
  | tooManyDimensions => "too many array dimensions"
  | malformedClassName => "malformed class name"
  | trailingAfterPrimitive => "trailing characters after primitive type"
  | unknownPrimitive => "unknown primitive type"
  | noElementType => "array without an element type"
  | other text => text

end DescriptorReason

/-- A text that is no descriptor, in full, and why. -/
structure DescriptorError where
  descriptor : String
  reason : DescriptorReason
  deriving Repr, DecidableEq

def DescriptorError.message (error : DescriptorError) : String :=
  "malformed descriptor '" ++ error.descriptor ++ "': " ++ error.reason.message

end ClassHost
