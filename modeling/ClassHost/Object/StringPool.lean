import ClassHost.Object.Heap

/-!
# Canonical strings

Interning a text gives the same string object every time. The pool makes strings of the class it is
bound to, once; until then it makes none.
-/

namespace ClassHost

/-- The class of new strings, and the strings made so far by their units. -/
structure StringPool where
  stringClass : Option ClassId
  strings : List (List UInt16 × ObjectId)
  deriving Repr, DecidableEq

namespace StringPool

def empty : StringPool := ⟨none, []⟩

def size (pool : StringPool) : Nat := pool.strings.length

/-- Sets the class of new strings, once. -/
def bind (pool : StringPool) (stringClass : ClassId) : Except Throwable StringPool :=
  match pool.stringClass with
  | some _ => .error (.internal .stringsAlreadyBound)
  | none => .ok { pool with stringClass := some stringClass }

/-- The string of a text, made on first use. -/
def intern (pool : StringPool) (heap : Heap) (text : String) :
    Except Throwable (ObjectId × StringPool × Heap) :=
  match pool.stringClass with
  | none => .error (.internal (.stringsUnbound text))
  | some stringClass =>
    let units := Text.units text
    match pool.strings.lookup units with
    | some id => .ok (id, pool, heap)
    | none =>
      let (id, heap) := heap.newString stringClass units
      .ok (id, { pool with strings := (units, id) :: pool.strings }, heap)

end StringPool

end ClassHost
