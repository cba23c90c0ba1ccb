import LoopLang.Prompt.Catalogue
import LoopLang.Syntax.Writing

/-!
# Things

A template goes from the name of a variable to its characters and its features, and on to
the features of those. Features are looked up in the family of a thing and then in the
family of anything; those of a family itself are looked up in its own line first, except
for properties. Asking a thing for a feature binds the feature to the thing.
-/
namespace LoopLang.Prompt

inductive Thing where
  | text (chars : List Char)
  | number (value : Nat)
  | truth (holds : Bool)
  | nothing
  /-- A tuple of families. -/
  | families (members : List Family)
  /-- A tuple of one thing. -/
  | single (member : Thing)
  | family (own : Family)
  /-- An operation for one thing. -/
  | operation (entry : Feature) (self : Thing)
  | primitive (owner : Family) (entry : Feature) (self : Thing)
  /-- A feature that is not that of one thing. -/
  | feature (owner : Family) (entry : Feature)
  /-- The features of a family under their names. -/
  | catalogue (own : Family)
  /-- A dictionary without entries. -/
  | noEntries
  /-- An operation of a family as its catalogue holds it if it is nobody's own. -/
  | detached (owner : Family) (entry : Feature)
  /-- A family with a parameter in brackets. -/
  | applied (origin : Family) (parameter : Thing)
  /-- A list or a node in the place of a name. -/
  | part (node : Node)

namespace Thing

def ofString (content : String) : Thing :=
  .text content.toList

def ofOption : Option String → Thing
  | some content => ofString content
  | none => nothing

def ofNode : Node → Thing
  | .text content => ofString content
  | .absent => nothing
  | node => part node

def ofNote (lines : List String) : Thing :=
  if lines.isEmpty then nothing else ofString ("\n".intercalate lines)

def familyOf : Thing → Family
  | text _ => .text
  | number _ => .number
  | truth _ => .truth
  | nothing => .nothing
  | families _ | single _ => .tuple
  | family _ => .family
  | operation .. => .operation
  | primitive .. => .primitive
  | catalogue _ => .catalogue
  | noEntries => .dictionary
  | detached .. => .detached
  | applied .. => .applied
  | part _ => .anything
  | feature _ entry =>
    match entry.role with
    | .primitive => .primitiveOf
    | .operation => .operationOf
    | .shared => .sharedOf
    | .property => .propertyOf
    | .member => .memberOf
    | .maker | .free | .fixed => .anything

end Thing

/-- A feature with the family it comes from. -/
structure Found where
  owner : Family
  feature : Feature

namespace Family

/-- Looks a feature up in the line of a family. -/
def find? (f : Family) (name : String) : Option Found :=
  f.line.findSome? fun owner =>
    (owner.features.find? (·.name == name)).map fun feature => ⟨owner, feature⟩

def entry (owner : Family) (feature : Feature) : Thing :=
  match feature.role with
  | .maker => .operation feature (.family owner)
  | .free => .detached owner feature
  | .fixed => .ofNote feature.note
  | .primitive | .operation | .shared | .property | .member => .feature owner feature

/-- The note on a family; without one of its own it has the entry for notes. -/
def noteThing (f : Family) : Thing :=
  if f.note.isEmpty then
    match f.features.find? (·.name == "__doc__") with
    | some feature => f.entry feature
    | none => .nothing
  else .ofNote f.note

def property? (f : Family) (name : String) : Option Thing :=
  [("__name__", .ofString f.name), ("__qualname__", .ofString f.name),
    ("__module__", .ofString f.home), ("__mro__", .families f.line),
    ("__bases__", .families f.parents),
    ("__base__", (f.parents.head?.map .family).getD .nothing),
    ("__basicsize__", .number f.sizes.basic), ("__itemsize__", .number f.sizes.item),
    ("__flags__", .number f.sizes.flags), ("__weakrefoffset__", .number f.sizes.references),
    ("__dictoffset__", .number f.sizes.attributes), ("__dict__", .catalogue f),
    ("__doc__", f.noteThing), ("__text_signature__", .ofOption f.signature)].lookup name

def takesParameter (f : Family) : Bool :=
  f == .family || (f.find? "__class_getitem__").isSome

end Family

namespace Found

def isProperty (found : Found) : Bool :=
  found.feature.role == .property || found.feature.role == .member

/-- What a feature tells of itself, where `place` is what it is a feature of. -/
def facts (feature : Feature) (place : String) : List (String × Thing) :=
  [("__name__", .ofString feature.name), ("__qualname__", .ofString (place ++ "." ++ feature.name)),
    ("__doc__", .ofNote feature.note), ("__text_signature__", .ofOption feature.signature)]

end Found

namespace Thing

/-- What an operation of a thing is called after. -/
def place : Thing → String
  | family f => f.name
  | thing => thing.familyOf.name

def wholeProperty? (value : Nat) (name : String) : Option Thing :=
  [("real", .number value), ("numerator", .number value), ("imag", .number 0),
    ("denominator", .number 1)].lookup name

def property? (thing : Thing) (name : String) : Option Thing :=
  if name = "__class__" then some (.family thing.familyOf)
  else
    match thing with
    | family f => f.property? name
    | number value => wholeProperty? value name
    | truth holds => wholeProperty? holds.toNat name
    | operation entry self =>
      (Found.facts entry self.place ++ [("__module__", .nothing),
        ("__self__", if entry.role = .free then .nothing else self)]).lookup name
    | primitive owner entry self =>
      (Found.facts entry owner.name ++ [("__objclass__", .family owner),
        ("__self__", self)]).lookup name
    | feature owner entry =>
      (Found.facts entry owner.name ++ [("__objclass__", Thing.family owner)]).lookup name
    | detached owner entry =>
      [("__func__", .operation entry (.family owner)),
        ("__wrapped__", .operation entry (.family owner)),
        ("__isabstractmethod__", .truth false), ("__dict__", .noEntries)].lookup name
    | applied origin parameter =>
      [("__origin__", .family origin), ("__args__", .single parameter),
        ("__parameters__", .families []), ("__unpacked__", .truth false),
        ("__typing_unpacked_tuple_args__", .nothing)].lookup name
    | _ => none

def bind (thing : Thing) (found : Found) : Option Thing :=
  match found.feature.role with
  | .primitive => some (.primitive found.owner found.feature thing)
  | .operation => some (.operation found.feature thing)
  | .shared => some (.operation found.feature (.family thing.familyOf))
  | .property | .member => thing.property? found.feature.name
  | .free => some (.operation found.feature (.family found.owner))
  | .maker | .fixed => some (found.owner.entry found.feature)

/-- A feature from the line of a family, for the family. -/
def ofLine (f : Family) (found : Found) : Thing :=
  match found.feature.role with
  | .shared => .operation found.feature (.family f)
  | .free => .operation found.feature (.family found.owner)
  | _ => found.owner.entry found.feature

def familyAttribute? (f : Family) (name : String) : Option Thing :=
  let general := Family.family.find? name
  match general.filter Found.isProperty with
  | some found => (Thing.family f).bind found
  | none =>
    match f.find? name with
    | some found => some (ofLine f found)
    | none => general.bind (Thing.family f).bind

/-- What a family with a parameter is asked for itself. -/
def ownNames : List String :=
  ["__class__", "__origin__", "__args__", "__unpacked__", "__parameters__",
    "__typing_unpacked_tuple_args__", "__mro_entries__", "__reduce_ex__", "__reduce__", "__copy__",
    "__deepcopy__"]

/-- The attribute of a thing. A family with a parameter has most of those of the family. -/
def attribute? (thing : Thing) (name : String) : Option Thing :=
  match thing with
  | family f => familyAttribute? f name
  | applied origin _ =>
    if name ∈ ownNames then (thing.familyOf.find? name).bind thing.bind
    else familyAttribute? origin name
  | part _ => none
  | _ => (thing.familyOf.find? name).bind thing.bind

def address : String :=
  "0x7f0000000000"

/-- What a feature is called among those of all things of a family. -/
def roleName (role : Role) : String :=
  match role with
  | .primitive => "slot wrapper"
  | .property => "attribute"
  | .member => "member"
  | _ => "method"

/-- A thing other than a catalogue in quotes. -/
def quotedPart : Thing → List Char
  | text chars => Text.quoteChars chars
  | number value => (toString value).toList
  | truth holds => (if holds then "True" else "False").toList
  | nothing => "None".toList
  | families [f] => ("(<class '" ++ f.title ++ "'>,)").toList
  | families members =>
    ("(" ++ ", ".intercalate (members.map fun f => "<class '" ++ f.title ++ "'>") ++ ")").toList
  | single member => '(' :: member.quotedPart ++ [',', ')']
  | family f => ("<class '" ++ f.title ++ "'>").toList
  | operation entry self =>
    ("<built-in method " ++ entry.name ++ " of " ++ self.familyOf.title ++ " object at " ++
      address ++ ">").toList
  | primitive _ entry self =>
    ("<method-wrapper '" ++ entry.name ++ "' of " ++ self.familyOf.title ++ " object at " ++
      address ++ ">").toList
  | feature owner entry =>
    ("<" ++ roleName entry.role ++ " '" ++ entry.name ++ "' of '" ++ owner.title ++
      "' objects>").toList
  | catalogue _ => []
  | noEntries => ['\x7b', '\x7d']
  | detached _ entry =>
    ("<staticmethod(<built-in method " ++ entry.name ++ " of type object at " ++ address ++
      ">)>").toList
  | applied origin parameter => origin.title.toList ++ '[' :: parameter.quotedPart ++ [']']
  | part node => node.written.toList

def quotedEntries (f : Family) : List Char :=
  let entries := f.features.map fun feature =>
    Text.quote feature.name ++ ": " ++ .ofList (f.entry feature).quotedPart
  ("\x7b" ++ ", ".intercalate entries ++ "\x7d").toList

def quoted : Thing → List Char
  | catalogue f => "mappingproxy(".toList ++ quotedEntries f ++ [')']
  | thing => thing.quotedPart

def itemAt (thing : Thing) (position : Nat) : Except Fault Thing :=
  match thing with
  | text chars =>
    match chars[position]? with
    | some c => .ok (.text [c])
    | none => .error .itemOutOfRange
  | families members =>
    match members[position]? with
    | some f => .ok (.family f)
    | none => .error .itemOutOfRange
  | part (.item head rest) =>
    match (head :: rest.elements)[position]? with
    | some value => .ok (ofNode value)
    | none => .error .itemOutOfRange
  | part .emptyList => .error .itemOutOfRange
  | single member => if position = 0 then .ok member else .error .itemOutOfRange
  | catalogue _ | noEntries => .error .unknownField
  | family f =>
    if f.takesParameter then .ok (.applied f (.number position)) else .error .unknownItem
  | _ => .error .unknownItem

def itemUnder (thing : Thing) (key : List Char) : Except Fault Thing :=
  match thing with
  | catalogue f =>
    match f.features.find? (·.name.toList == key) with
    | some entry => .ok (f.entry entry)
    | none => .error .unknownField
  | noEntries => .error .unknownField
  | family f => if f.takesParameter then .ok (.applied f (.text key)) else .error .unknownItem
  | _ => .error .unknownItem

def shown : Thing → List Char
  | text chars => chars
  | catalogue f => quotedEntries f
  | thing => thing.quoted

/-- What stands in the way of writing a thing. -/
def obstacle? : Thing → Option Fault
  | part node => node.obstacle? true Node.levelLimit
  | _ => none

end Thing

end LoopLang.Prompt
