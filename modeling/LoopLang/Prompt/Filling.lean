import LoopLang.Prompt.Figure
import LoopLang.Prompt.Template
import LoopLang.Prompt.Thing

/-!
# Filling templates

Before a value is read, the template of the prompt is filled in with the name of the
variable. A field may go on to a character of the name or to a feature, may ask for what
it leads to in quotes, and may lay it out; the layout may hold fields itself, but those
have none in theirs. Fields are filled from left to right, and the first fault is the one
told.
-/
namespace LoopLang.Prompt

def readNumber (text : List Char) : Except Fault (Option Nat) := do
  match ← splitNumber text with
  | (some value, []) => return some value
  | _ => return none

/-- What the beginning of a path stands for when a variable is read. Nothing is given by
number, and a field without a path counts as numbered. -/
def lookUp (name : Thing) (root : List Char) : Except Fault Thing := do
  if (← readNumber root).isSome ∨ root.isEmpty then .error .numberedField
  else if root = ['n', 'a', 'm', 'e'] then return name
  else .error .unknownField

def step (thing : Thing) : Access → Except Fault Thing
  | .attribute name =>
    match thing.attribute? (.ofList name) with
    | some next => .ok next
    | none => .error .unknownAttribute
  | .item key => do
    match ← readNumber key with
    | some position => thing.itemAt position
    | none => thing.itemUnder key
  | .broken => .error .malformedPrompt

def tell (write : Thing → List Char) (thing : Thing) : Except Fault (List Char) :=
  match thing.obstacle? with
  | some fault => .error fault
  | none => .ok (write thing)

/-- The thing as it is, as text, in quotes, or in quotes and in ASCII. -/
def convert (conversion : Option Char) (thing : Thing) : Except Fault Thing :=
  match conversion with
  | none | some '\x00' => .ok thing
  | some 's' => do return .text (← tell Thing.shown thing)
  | some 'r' => do return .text (← tell Thing.quoted thing)
  | some 'a' => do
    return .text ((← tell Thing.quoted thing).flatMap fun c =>
      if c.toNat < 0x80 then [c] else Text.escapeCode c.toNat)
  | some _ => .error .malformedPrompt

/-- Sets a thing; only texts and numbers can be laid out, and truth as a number. -/
def set (thing : Thing) (spec : List Char) : Except Fault (List Char) :=
  if spec.isEmpty then tell Thing.shown thing
  else
    match thing with
    | .text chars => do (← Layout.parse spec).setText chars
    | .number value => do (← Layout.parse spec).setNumber value
    | .truth holds => do (← Layout.parse spec).setNumber holds.toNat
    | _ => .error .noLayout

/-- The text that a field stands for; `fillSpec` fills the fields of its layout. -/
def fillField (fillSpec : List Char → Except Fault (List Char)) (name : Thing)
    (field : Field) : Except Fault (List Char) := do
  let thing ← (pathAccesses field.path).foldlM step (← lookUp name (pathRoot field.path))
  let thing ← convert field.conversion thing
  set thing (← fillSpec field.spec)

def fillPieces (fillSpec : List Char → Except Fault (List Char)) (name : Thing) :
    List Piece → Except Fault (List Char)
  | [] => .ok []
  | .plain c :: rest => do return c :: (← fillPieces fillSpec name rest)
  | .field field :: rest => do
    let text ← fillField fillSpec name field
    return text ++ (← fillPieces fillSpec name rest)
  | .broken :: _ => .error .malformedPrompt

/-- Fills a template whose layouts may hold templates to a depth. -/
def fillNested (name : Thing) : Nat → List Char → Except Fault (List Char)
  | 0, _ => .error .malformedPrompt
  | depth + 1, template =>
    fillPieces (fun spec => if '\x7b' ∈ spec then fillNested name depth spec else .ok spec) name
      (pieces template)

def fill (template : String) (name : Node) : Except Fault String :=
  (fillNested (.ofNode name) 2 template.toList).map String.ofList

end LoopLang.Prompt
