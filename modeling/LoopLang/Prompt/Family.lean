/-!
# Families and features

Whatever a template leads to belongs to a family: texts, numbers, tuples and so on, and
also the families themselves and their features. A family has features of its own and
shares those of the family of anything. A feature is a primitive, an operation, something
that families do, or a property, and it may carry a signature and a note.
-/
namespace LoopLang.Prompt

inductive Family where
  | text | number | truth | tuple | nothing | anything | family | catalogue | dictionary
  /-- Operations and primitives of one thing. -/
  | operation | primitive
  /-- Features that are not those of one thing. -/
  | operationOf | primitiveOf | sharedOf | propertyOf | memberOf
  /-- Operations in a catalogue that are nobody's own. -/
  | detached
  /-- Families with a parameter. -/
  | applied
  deriving DecidableEq

inductive Role where
  | primitive
  | operation
  /-- An operation of families, for the family it is asked of. -/
  | shared
  /-- An operation of the family that the feature comes from. -/
  | maker
  /-- Such an operation that is nobody's own. -/
  | free
  | property
  | member
  /-- The same for all things. -/
  | fixed
  deriving DecidableEq

structure Feature where
  name : String
  role : Role
  signature : Option String
  /-- The lines of the note; a feature without a note has none. -/
  note : List String

/-- What the numbers about a family are. -/
structure Sizes where
  basic : Nat
  item : Nat
  flags : Nat
  references : Nat
  attributes : Nat

namespace Family

def name : Family → String
  | text => "str"
  | number => "int"
  | tuple => "tuple"
  | nothing => "NoneType"
  | anything => "object"
  | family => "type"
  | catalogue => "mappingproxy"
  | operation => "builtin_function_or_method"
  | primitive => "method-wrapper"
  | operationOf => "method_descriptor"
  | primitiveOf => "wrapper_descriptor"
  | sharedOf => "classmethod_descriptor"
  | propertyOf => "getset_descriptor"
  | memberOf => "member_descriptor"
  | detached => "staticmethod"
  | applied => "GenericAlias"
  | truth => "bool"
  | dictionary => "dict"

def home : Family → String
  | applied => "types"
  | _ => "builtins"

/-- The name of a family with its home, unless all names are known there. -/
def title (f : Family) : String :=
  if f.home = "builtins" then f.name else f.home ++ "." ++ f.name

def sizes : Family → Sizes
  | text => ⟨80, 0, 273159424, 0, 0⟩
  | number => ⟨24, 4, 21501184, 0, 0⟩
  | tuple => ⟨24, 8, 71849248, 0, 0⟩
  | nothing => ⟨16, 0, 528640, 0, 0⟩
  | anything => ⟨16, 0, 529664, 0, 0⟩
  | family => ⟨904, 40, 2148031744, 368, 264⟩
  | catalogue => ⟨24, 0, 545088, 0, 0⟩
  | operation => ⟨56, 0, 547200, 40, 0⟩
  | primitive => ⟨32, 0, 545152, 0, 0⟩
  | operationOf => ⟨56, 0, 678272, 0, 0⟩
  | primitiveOf => ⟨56, 0, 676224, 0, 0⟩
  | sharedOf => ⟨56, 0, 545152, 0, 0⟩
  | propertyOf => ⟨48, 0, 545152, 0, 0⟩
  | memberOf => ⟨48, 0, 545152, 0, 0⟩
  | detached => ⟨32, 0, 546048, 0, 24⟩
  | applied => ⟨64, 0, 548096, 40, 0⟩
  | truth => ⟨32, 4, 21500160, 0, 0⟩
  | dictionary => ⟨48, 0, 541611328, 0, 0⟩

/-- A family and those above it. -/
def line : Family → List Family
  | anything => [anything]
  | truth => [truth, number, anything]
  | f => [f, anything]

def parents (f : Family) : List Family :=
  (f.line.drop 1).take 1

end Family

end LoopLang.Prompt
