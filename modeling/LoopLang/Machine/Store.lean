import LoopLang.Settings
import LoopLang.Syntax.Outline
import LoopLang.Syntax.Writing

/-!
# Stores and states

A store keeps the variables in the order in which they were first written; a variable
that was never written reads as zero. Writing one variable changes no other, and moves no
name. A tree that was put together by hand may leave the name of a variable out; it then
means one more variable, whose name is missing. A state is a store together with the
signal of a pending break: none, one for the nearest loop, or one for the loop with a
label.
-/
namespace LoopLang

structure Store where
  entries : List (Option String × Float)

namespace Store

def empty : Store := ⟨[]⟩

def names (store : Store) : List (Option String) :=
  store.entries.map (·.1)

def find? (store : Store) (name : Option String) : Option Float :=
  store.entries.lookup name

def get (store : Store) (name : Option String) : Float :=
  (store.find? name).getD 0

def contains (store : Store) (name : Option String) : Bool :=
  (store.find? name).isSome

/-- The entries with the value of a name replaced in place, or added at the end. -/
def insert (name : Option String) (value : Float) :
    List (Option String × Float) → List (Option String × Float)
  | [] => [(name, value)]
  | (other, old) :: rest =>
    if other = name then (name, value) :: rest else (other, old) :: insert name value rest

theorem lookup_insert (name other : Option String) (value : Float)
    (entries : List (Option String × Float)) :
    (insert name value entries).lookup other =
      if other = name then some value else entries.lookup other := by
  induction entries with
  | nil =>
    by_cases h : other = name
    · simp [insert, h]
    · have differs : (other == name) = false := by simp [h]
      simp [insert, List.lookup_cons, differs, h]
  | cons entry rest ih =>
    obtain ⟨first, old⟩ := entry
    by_cases same : first = name
    · subst same
      by_cases h : other = first
      · simp [insert, h]
      · have differs : (other == first) = false := by simp [h]
        simp [insert, List.lookup_cons, differs, h]
    · by_cases h : other = first
      · simp [insert, h, same]
      · have differs : (other == first) = false := by simp [h]
        simp [insert, List.lookup_cons, differs, same, ih]

/-- A new name goes to the end; the order of the others stays. -/
theorem names_insert (name : Option String) (value : Float)
    (entries : List (Option String × Float)) :
    (insert name value entries).map (·.1) =
      if name ∈ entries.map (·.1) then entries.map (·.1) else entries.map (·.1) ++ [name] := by
  induction entries with
  | nil => simp [insert]
  | cons entry rest ih =>
    obtain ⟨first, old⟩ := entry
    by_cases hf : first = name
    · simp [insert, hf]
    · simp only [insert, hf, if_false, List.map_cons, ih, List.mem_cons, Ne.symm hf, false_or]
      split <;> simp

def set (store : Store) (name : Option String) (value : Float) : Store :=
  ⟨insert name value store.entries⟩

theorem find?_set (store : Store) (name other : Option String) (value : Float) :
    (store.set name value).find? other = if other = name then some value else store.find? other :=
  lookup_insert name other value store.entries

theorem names_set (store : Store) (name : Option String) (value : Float) :
    (store.set name value).names =
      if name ∈ store.names then store.names else store.names ++ [name] :=
  names_insert name value store.entries

def nameText (name : Option String) : String :=
  name.getD "None"

/-- One line for each variable, its name filled up to twelve characters. -/
def listing (store : Store) : List String :=
  store.entries.map fun (name, value) =>
    nameText name ++ .ofList (List.replicate (12 - (nameText name).length) ' ') ++ " : " ++
      Number.printed value

end Store

inductive Signal where
  | running
  | leaveNearest
  | leaveTo (label : Node)
  deriving DecidableEq

namespace Signal

def isBreaking (signal : Signal) : Bool :=
  signal != running

/-- The signal of a break; a target that says nothing means the nearest loop. -/
def ofTarget (target : Node) : Signal :=
  if target.isGiven then leaveTo target else leaveNearest

/-- The label that is being looked for, if there is one. -/
def target : Signal → Node
  | leaveTo label => label
  | running | leaveNearest => .text ""

/-- Whether a loop with this label is the one to leave. -/
def endsAt (signal : Signal) (label : Node) : Bool :=
  match signal with
  | running => false
  | leaveNearest => true
  | leaveTo target => target.sameValue label

def name : Signal → String
  | running => "RUNNING"
  | leaveNearest => "BREAK_ONE"
  | leaveTo _ => "BREAK_TO"

end Signal

structure State where
  store : Store
  signal : Signal

namespace State

def initial : State := ⟨Store.empty, .running⟩

def assign (state : State) (name : Option String) (value : Float) : State :=
  { state with store := state.store.set name value }

/-- Asks for a break. While one is pending, further requests change nothing. -/
def requestBreak (state : State) (target : Node) : State :=
  if state.signal.isBreaking then state else { state with signal := .ofTarget target }

def finishBreak (state : State) : State :=
  { state with signal := .running }

def entryText (entry : Option String × Float) : String :=
  Text.quoteOption entry.1 ++ ": " ++ Number.write Number.standard entry.2

def describe (state : State) : String :=
  "RuntimeState(\x7b" ++ ", ".intercalate (state.store.entries.map entryText) ++
    "\x7d, control=" ++ state.signal.name ++ ", break_to=" ++ state.signal.target.written ++ ")"

def outline (state : State) : Data :=
  .record [
    ("variables", .record (state.store.entries.map fun (name, value) =>
      (Store.nameText name, .number value))),
    ("breaking", .bool state.signal.isBreaking),
    ("break_to", state.signal.target.outlined)]

end State

end LoopLang
