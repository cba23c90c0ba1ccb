import LoopLang.Machine.Execution

/-!
# Structured breaks

What a program means without a pending signal. A statement takes a scene to another one
and ends in one of four ways: normally, with a break for the nearest loop, with a break
for the loop with a label, or with a fault. Lists stop at the first statement that does
not end normally, and a loop repeats its body until that does not. Nothing bounds how
often a loop goes round, so a program that goes on for ever has no meaning.
-/
namespace LoopLang

/-- What a program reads and writes. -/
structure Scene where
  store : Store
  console : Console

inductive Completion where
  | normal
  | breakOne
  | breakTo (label : String)
  | failed (fault : Fault)
  deriving DecidableEq

namespace Completion

def ofFault? : Option Fault → Completion
  | none => normal
  | some fault => failed fault

def fault? : Completion → Option Fault
  | failed fault => some fault
  | normal | breakOne | breakTo _ => none

/-- The signal that is left pending. -/
def signal : Completion → Signal
  | normal | failed _ => .running
  | breakOne => .leaveNearest
  | breakTo label => .leaveTo (.text label)

@[simp] theorem fault?_ofFault? (fault? : Option Fault) : (ofFault? fault?).fault? = fault? := by
  cases fault? <;> rfl

@[simp] theorem signal_ofFault? (fault? : Option Fault) : (ofFault? fault?).signal = .running := by
  cases fault? <;> rfl

/-- How a loop ends if its body does not end normally. -/
def afterLoop (label : String) : Completion → Completion
  | breakTo target => if target = label then normal else breakTo target
  | failed fault => failed fault
  | normal | breakOne => normal

theorem fault?_afterLoop (label : String) (outcome : Completion) :
    (outcome.afterLoop label).fault? = outcome.fault? := by
  cases outcome with
  | breakTo target =>
    rw [afterLoop]
    split <;> rfl
  | _ => rfl

end Completion

namespace Scene

/-- Shows the prompt for a variable, reads a line and keeps the number on it. -/
def readName (prompt : String) (scene : Scene) (name : String) : Option Fault × Scene :=
  match Prompt.fill prompt (.text name) with
  | .error fault => (some fault, scene)
  | .ok shown =>
    match scene.console.readLine shown with
    | .error fault => (some fault, scene)
    | .ok (line, console) =>
      match readNumber (.text name) line with
      | .error fault => (some fault, { scene with console })
      | .ok value => (none, ⟨scene.store.set (some name) value, console⟩)

def writeLine (scene : Scene) (line : String) : Option Fault × Scene :=
  match scene.console.writeLine line with
  | .error fault => (some fault, scene)
  | .ok console => (none, { scene with console })

def printName (scene : Scene) (name : String) : Option Fault × Scene :=
  scene.writeLine (name ++ "=" ++ Number.printed (scene.store.get (some name)))

/-- Does something for each of some texts, up to the first fault. -/
def each (act : Scene → String → Option Fault × Scene) : List String → Scene →
    Option Fault × Scene
  | [], scene => (none, scene)
  | text :: rest, scene =>
    match act scene text with
    | (some fault, after) => (some fault, after)
    | (none, after) => each act rest after

end Scene

/-- The number that an arithmetic node comes to, at whatever depth that takes. -/
def Node.ComesTo (store : Store) (node : Node) (result : Except Fault Float) : Prop :=
  ∃ depth, node.evalNumber store.get depth ≠ .error .stackExhausted ∧
    (node.evalNumber store.get depth >>= needed) = result

/-- Whether a condition holds, at whatever depth that takes. -/
def Node.Decides (store : Store) (node : Node) (result : Except Fault Bool) : Prop :=
  ∃ depth, node.evalCondition store.get depth ≠ .error .stackExhausted ∧
    node.evalCondition store.get depth = result

def Node.ofNames (names : List String) : Node :=
  .ofItems (names.map .text)

/-- A statement or a list of statements takes one scene to another. -/
inductive Runs (prompt : String) : Node → Scene → Completion → Scene → Prop where
  | last {first span scene outcome after} (runs : Runs prompt first scene outcome after) :
      Runs prompt (.sequence first .absent span) scene outcome after
  | next {first rest span scene middle outcome after}
      (runs : Runs prompt first scene .normal middle)
      (others : Runs prompt rest middle outcome after) :
      Runs prompt (.sequence first rest span) scene outcome after
  | stop {first rest span scene outcome after} (runs : Runs prompt first scene outcome after)
      (leaves : outcome ≠ .normal) :
      Runs prompt (.sequence first rest span) scene outcome after
  | consequent {test body rest span scene outcome after}
      (holds : test.Decides scene.store (.ok true)) (runs : Runs prompt body scene outcome after) :
      Runs prompt (.branch test body rest span) scene outcome after
  | alternate {test body rest span scene outcome after}
      (fails : test.Decides scene.store (.ok false)) (runs : Runs prompt rest scene outcome after) :
      Runs prompt (.branch test body rest span) scene outcome after
  | undecided {test body rest span scene fault}
      (faulty : test.Decides scene.store (.error fault)) :
      Runs prompt (.branch test body rest span) scene (.failed fault) scene
  | fi {span scene} : Runs prompt (.otherwise .absent span) scene .normal scene
  | otherwise {body span scene outcome after} (runs : Runs prompt body scene outcome after) :
      Runs prompt (.otherwise body span) scene outcome after
  | again {label body span scene middle outcome after}
      (runs : Runs prompt body scene .normal middle)
      (repeats : Runs prompt (.loop (.text label) body span) middle outcome after) :
      Runs prompt (.loop (.text label) body span) scene outcome after
  | leave {label body span scene outcome after} (runs : Runs prompt body scene outcome after)
      (leaves : outcome ≠ .normal) :
      Runs prompt (.loop (.text label) body span) scene (outcome.afterLoop label) after
  | exit {span scene} : Runs prompt (.exit (.text "") span) scene .breakOne scene
  | exitTo {label span scene} (given : label ≠ "") :
      Runs prompt (.exit (.text label) span) scene (.breakTo label) scene
  | assign {name value span scene number} (comesTo : value.ComesTo scene.store (.ok number)) :
      Runs prompt (.assign (.text name) value span) scene .normal
        { scene with store := scene.store.set (some name) number }
  | noValue {name value span scene fault} (faulty : value.ComesTo scene.store (.error fault)) :
      Runs prompt (.assign (.text name) value span) scene (.failed fault) scene
  | read {list names span scene fault? after} (holds : list = .ofNames names)
      (reads : scene.each (Scene.readName prompt) names = (fault?, after)) :
      Runs prompt (.read list span) scene (.ofFault? fault?) after
  | print {list names span scene fault? after} (holds : list = .ofNames names)
      (prints : scene.each Scene.printName names = (fault?, after)) :
      Runs prompt (.print list span) scene (.ofFault? fault?) after

theorem Runs.label_given {prompt : String} {node : Node} {scene after : Scene} {label : String}
    (runs : Runs prompt node scene (.breakTo label) after) : label ≠ "" := by
  generalize ends : Completion.breakTo label = outcome at runs
  induction runs with
  | last _ ih | next _ _ _ ih | stop _ _ ih | consequent _ _ ih | alternate _ _ ih
  | otherwise _ ih | again _ _ _ ih => exact ih ends
  | @leave label' _ _ _ outcome _ _ _ ih =>
    cases outcome with
    | breakTo target =>
      rw [Completion.afterLoop] at ends
      split at ends
      · cases ends
      · exact ih ends
    | _ => cases ends
  | exitTo given =>
    cases ends
    exact given
  | @read _ _ _ _ fault? => cases fault? <;> cases ends
  | @print _ _ _ _ fault? => cases fault? <;> cases ends
  | _ => cases ends

/-- What is written at the end of a program that no loop ended a break of. -/
def unmatchedLines (label? : Option String) : List String :=
  "Error! - Attempting to break, and reached the end of program" ::
    (label?.map fun label => "Label " ++ label ++ ": Not Found").toList

/-- A fault as the run of a program reports it. -/
def Fault.ofRun : Fault → Fault
  | .stackExhausted => .programTooDeep
  | fault => fault

/-- What a program adds to the end of its statements: a break that no loop ended is told, and
stays pending. -/
inductive Concludes : Completion → Scene → Option Fault → Signal → Scene → Prop where
  | normal {scene} : Concludes .normal scene none .running scene
  | failed {fault scene} : Concludes (.failed fault) scene (some fault.ofRun) .running scene
  | breakOne {scene fault? after}
      (told : scene.each Scene.writeLine (unmatchedLines none) = (fault?, after)) :
      Concludes .breakOne scene fault? .leaveNearest after
  | breakTo {label scene fault? after}
      (told : scene.each Scene.writeLine (unmatchedLines (some label)) = (fault?, after)) :
      Concludes (.breakTo label) scene fault? (.leaveTo (.text label)) after

/-- A program takes one scene to another, and leaves a fault or none and a signal. -/
inductive Finishes (prompt : String) : Node → Scene → Option Fault → Signal → Scene → Prop where
  | program {body span scene outcome middle fault? signal after}
      (runs : Runs prompt body scene outcome middle)
      (concludes : Concludes outcome middle fault? signal after) :
      Finishes prompt (.program body span) scene fault? signal after

theorem Completion.exists_concludes (outcome : Completion) (scene : Scene) :
    ∃ fault? signal after, Concludes outcome scene fault? signal after := by
  cases outcome with
  | normal => exact ⟨_, _, _, .normal⟩
  | failed fault => exact ⟨_, _, _, .failed⟩
  | breakOne => exact ⟨_, _, _, .breakOne rfl⟩
  | breakTo label => exact ⟨_, _, _, .breakTo rfl⟩

end LoopLang
