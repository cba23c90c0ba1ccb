import LoopLang.Machine.Execution
import LoopLang.Proofs.Moving
import LoopLang.Proofs.Tracking

/-!
# Running a tree in other places

A run looks at no place: it only tells the place of a division by zero. So a tree in other
places runs as before, except for the places of faults. All places are brought to the same
ones here, so that what is told of either run can be compared.
-/
namespace LoopLang

variable (move : Location → Location)

namespace Node

theorem ifPresent_moved (part : Node) (written : String) :
    (part.moved move).ifPresent written = part.ifPresent written := by
  cases part <;> rfl

theorem written_moved (node : Node) : (node.moved move).written = node.written := by
  induction node with
  | «otherwise» body span ih => cases body <;> simp_all [moved, written]
  | comparison left operator right span ih _ ih' =>
    cases operator <;> simp_all [moved, written]
  | number value span => cases value <;> rfl
  | _ => simp_all [moved, written, ifPresent_moved]

theorem obstacle?_moved (inLanguage : Bool) (room : Nat) (node : Node) :
    (node.moved move).obstacle? inLanguage room = node.obstacle? inLanguage room := by
  induction node generalizing room with
  | sequence first rest span ih ih' =>
    cases room with
    | zero => rfl
    | succ room =>
      cases rest with
      | sequence next others span' =>
        have later := ih' (room + 1)
        simp only [moved] at later ⊢
        rw [obstacle?, obstacle?, ih, later]
      | _ => simp [moved, obstacle?, ih]
  | _ => cases room <;> simp_all [moved, obstacle?]

theorem write_moved (levels : Nat) (node : Node) :
    (node.moved move).write levels = node.write levels := by
  rw [write, write, obstacle?_moved, written_moved]

theorem misplaced_moved (node : Node) : (node.moved move).misplaced = node.misplaced := by
  rw [misplaced, misplaced, write_moved]

section Evaluation

variable {move} {look : Option String → Float} {depth : Nat} {node tail : Node}

theorem mapError_bind {ε ε' α β : Type} (f : ε → ε') (first : Except ε α)
    (next : α → Except ε β) : (first >>= next).mapError f =
      (first.mapError f >>= fun a => (next a).mapError f) := by
  cases first <;> rfl

variable (again : ∀ place, move (move place) = move place)
include again

theorem divide_moved (place : Option Location) (dividend divisor : Option Float) :
    (divide (place.map move) dividend divisor).mapError (Fault.moved move) =
      (divide place dividend divisor).mapError (Fault.moved move) := by
  unfold divide
  split
  · cases dividend with
    | none => rfl
    | some value =>
      cases place with
      | none => rfl
      | some place => simp [Except.mapError, Fault.moved, again]
  · rfl

variable {eval : Node → Except Fault (Option Float)}

omit again in
theorem addTail_moved
    (each : ∀ node : Node, (eval (node.moved move)).mapError (Fault.moved move) =
      (eval node).mapError (Fault.moved move)) (value : Option Float) :
    (addTail eval value (tail.moved move)).mapError (Fault.moved move) =
      (addTail eval value tail).mapError (Fault.moved move) := by
  fun_induction addTail eval value tail with
  | case2 value level operand tail span terms ih | case4 value level operand tail span terms ih =>
    simp [moved, addTail, terms, mapError_bind, each, ih]
  | case10 other _ notAbsent notLink _ _ notComparison =>
    cases other with
    | absent => exact (notAbsent rfl).elim
    | link => exact (notLink _ _ _ _ _ rfl).elim
    | comparison => exact (notComparison _ _ _ _ rfl).elim
    | _ => rfl
  | _ => simp_all [moved, addTail]

theorem multiplyTail_moved
    (each : ∀ node : Node, (eval (node.moved move)).mapError (Fault.moved move) =
      (eval node).mapError (Fault.moved move)) (value : Option Float) :
    (multiplyTail eval value (tail.moved move)).mapError (Fault.moved move) =
      (multiplyTail eval value tail).mapError (Fault.moved move) := by
  fun_induction multiplyTail eval value tail with
  | case3 value level operator operand tail span terms ih ih' =>
    have place : (span.map (Span.moved move)).map (·.start) = (span.map (·.start)).map move := by
      cases span <;> rfl
    rw [moved, multiplyTail, if_neg terms, mapError_bind, mapError_bind, each, place]
    congr 1
    funext right
    split
    · simp only [mapError_bind, ih]
    · simp only [mapError_bind, divide_moved again, ih']
    · rfl
  | case5 value level first tail span terms =>
    simp [moved, multiplyTail, terms, mapError_bind, each]
  | case6 other _ notAbsent notLink notChain =>
    cases other with
    | absent => exact (notAbsent rfl).elim
    | link => exact (notLink _ _ _ _ _ rfl).elim
    | chain => exact (notChain _ _ _ _ rfl).elim
    | _ => rfl
  | _ => simp_all [moved, multiplyTail]

theorem evalNumber_moved (depth : Nat) (node : Node) :
    (evalNumber look depth (node.moved move)).mapError (Fault.moved move) =
      (evalNumber look depth node).mapError (Fault.moved move) := by
  induction depth generalizing node with
  | zero => rfl
  | succ depth ih =>
    have misplaced : (.error (node.moved move).misplaced : Except Fault (Option Float)).mapError
        (Fault.moved move) = (Except.error node.misplaced).mapError (Fault.moved move) := by
      rw [misplaced_moved]
    cases node with
    | chain level first tail span =>
      cases level with
      | sum =>
        simp only [moved, evalNumber, mapError_bind, ih, addTail_moved ih]
      | product =>
        simp only [moved, evalNumber, mapError_bind, ih, multiplyTail_moved again ih]
      | disjunction | conjunction => exact misplaced
    | negation operand span => simp only [moved, evalNumber, mapError_bind, ih]
    | parenthesized inner span => simp only [moved, evalNumber, ih]
    | number | identifier => rfl
    | _ => exact misplaced

omit again

variable {decide : Node → Except Fault Bool}

theorem anyTail_moved
    (each : ∀ node : Node, (decide (node.moved move)).mapError (Fault.moved move) =
      (decide node).mapError (Fault.moved move)) :
    (anyTail decide (tail.moved move)).mapError (Fault.moved move) =
      (anyTail decide tail).mapError (Fault.moved move) := by
  fun_induction anyTail decide tail with
  | case2 level _ operand tail _ terms ih | case4 level operand tail _ terms ih =>
    rw [moved, anyTail, if_pos terms, mapError_bind, mapError_bind, each]
    congr 1
    funext holds
    cases holds
    · exact ih
    · rfl
  | case6 other notAbsent notLink notChain =>
    cases other with
    | absent => exact (notAbsent rfl).elim
    | link => exact (notLink _ _ _ _ _ rfl).elim
    | chain => exact (notChain _ _ _ _ rfl).elim
    | _ => rfl
  | _ => simp_all [moved, anyTail]

theorem allTail_moved
    (each : ∀ node : Node, (decide (node.moved move)).mapError (Fault.moved move) =
      (decide node).mapError (Fault.moved move)) :
    (allTail decide (tail.moved move)).mapError (Fault.moved move) =
      (allTail decide tail).mapError (Fault.moved move) := by
  fun_induction allTail decide tail with
  | case3 level _ operand tail _ terms ih | case5 level operand tail _ terms ih =>
    rw [moved, allTail, if_neg terms, mapError_bind, mapError_bind, each]
    congr 1
    funext holds
    cases holds
    · rfl
    · exact ih
  | case6 other notAbsent notLink notChain =>
    cases other with
    | absent => exact (notAbsent rfl).elim
    | link => exact (notLink _ _ _ _ _ rfl).elim
    | chain => exact (notChain _ _ _ _ rfl).elim
    | _ => rfl
  | _ => simp_all [moved, allTail]

include again

theorem evalCondition_moved (depth : Nat) (node : Node) :
    (evalCondition look depth (node.moved move)).mapError (Fault.moved move) =
      (evalCondition look depth node).mapError (Fault.moved move) := by
  induction depth generalizing node with
  | zero => rfl
  | succ depth ih =>
    have misplaced : (.error (node.moved move).misplaced : Except Fault Bool).mapError
        (Fault.moved move) = (Except.error node.misplaced).mapError (Fault.moved move) := by
      rw [misplaced_moved]
    cases node with
    | chain level first tail span =>
      cases level with
      | disjunction =>
        simp only [moved, evalCondition, mapError_bind, ih]
        congr 1
        funext holds
        cases holds
        · exact anyTail_moved ih
        · rfl
      | conjunction =>
        simp only [moved, evalCondition, mapError_bind, ih]
        congr 1
        funext holds
        cases holds
        · rfl
        · exact allTail_moved ih
      | sum | product => exact misplaced
    | comparison left operator right span =>
      simp only [moved, evalCondition, mapError_bind, evalNumber_moved again]
      congr 1
      funext value
      split
      · rfl
      · rfl
      · rfl
      · split
        · rw [mapError_bind, mapError_bind, evalNumber_moved again]
        · rfl
      · rfl
    | _ => exact misplaced

end Evaluation

end Node

/-- The fault of a halt in another place. -/
def Halt.moved : Halt → Halt
  | .fault cause => .fault (cause.moved move)
  | .outOfSteps => .outOfSteps

namespace Machine

variable {α β : Type} {move}

def moved (move : Location → Location) (action : Machine α) : Machine α := fun world =>
  match action world with
  | .ok a world => .ok a world
  | .error halt world => .error (halt.moved move) world

theorem moved_bind (first : Machine α) (next : α → Machine β) :
    (first >>= next).moved move = first.moved move >>= fun a => (next a).moved move := by
  funext world
  cases result : first world with
  | ok a middle =>
    have result' : first.moved move world = .ok a middle := by rw [moved, result]
    rw [moved, bind_ok result, bind_ok result', moved]
  | error halt last =>
    have result' : first.moved move world = .error (halt.moved move) last := by rw [moved, result]
    rw [moved, bind_error result, bind_error result']

theorem moved_bind_congr {first first' : Machine α} {next next' : α → Machine β}
    (same : first'.moved move = first.moved move)
    (each : ∀ a, (next' a).moved move = (next a).moved move) :
    (first' >>= next').moved move = (first >>= next).moved move := by
  rw [moved_bind, moved_bind, same, funext each]

theorem moved_ofExcept (result : Except Fault α) :
    (ofExcept result : Machine α).moved move = ofExcept (result.mapError (Fault.moved move)) := by
  cases result <;> rfl

variable {steps depth : Nat}

theorem runList_moved {run run' : Node → Machine Unit}
    (each : ∀ node : Node, (run' (node.moved move)).moved move = (run node).moved move)
    (node : Node) :
    (runList run' (node.moved move)).moved move = (runList run node).moved move := by
  induction node with
  | sequence first rest span _ ih =>
    refine moved_bind_congr (each first) fun _ => moved_bind_congr rfl fun pending => ?_
    split
    · rfl
    · exact ih
  | _ => rfl

theorem repeatBody_moved {body body' : Machine Unit} (same : body'.moved move = body.moved move)
    (label : Node) (rounds : Nat) :
    (repeatBody label body' rounds).moved move = (repeatBody label body rounds).moved move := by
  induction rounds with
  | zero => rfl
  | succ rounds ih =>
    refine moved_bind_congr same fun _ => moved_bind_congr rfl fun pending => ?_
    split
    · rfl
    · exact ih

variable (again : ∀ place, move (move place) = move place)
include again

theorem evalNumber_moved (node : Node) :
    (evalNumber depth (node.moved move)).moved move = (evalNumber depth node).moved move := by
  simp only [evalNumber, moved_bind, moved_ofExcept, Node.evalNumber_moved again]

theorem evalCondition_moved (node : Node) :
    (evalCondition depth (node.moved move)).moved move = (evalCondition depth node).moved move := by
  simp only [evalCondition, moved_bind, moved_ofExcept, Node.evalCondition_moved again]

theorem execute_moved (node : Node) :
    (execute steps depth (node.moved move)).moved move =
      (execute steps depth node).moved move := by
  induction depth generalizing node with
  | zero => rfl
  | succ depth ih =>
    have unlessBreaking {action action' : Machine Unit}
        (same : action'.moved move = action.moved move) :
        (signal >>= fun pending => if pending.isBreaking then pure () else action').moved move =
        (signal >>= fun pending => if pending.isBreaking then pure () else action).moved move := by
      refine moved_bind_congr rfl fun pending => ?_
      split
      · rfl
      · exact same
    have misplaced : (fail (node.moved move).misplaced : Machine Unit).moved move =
        (fail node.misplaced : Machine Unit).moved move := by
      rw [Node.misplaced_moved]
    cases node with
    | program body span =>
      exact unlessBreaking (moved_bind_congr (ih body) fun _ => rfl)
    | sequence first rest span =>
      exact unlessBreaking (runList_moved ih (.sequence first rest span))
    | branch test consequent alternate span =>
      apply unlessBreaking
      refine moved_bind_congr (evalCondition_moved again test) fun holds =>
        moved_bind_congr rfl fun _ => ?_
      split
      · exact ih consequent
      · exact ih alternate
    | «otherwise» body span =>
      cases body with
      | absent => rfl
      | _ => exact unlessBreaking (ih _)
    | loop label body span =>
      exact unlessBreaking (repeatBody_moved (ih body) label steps)
    | assign name value span =>
      exact unlessBreaking (moved_bind_congr (evalNumber_moved again value) fun _ => rfl)
    | exit | read | print => rfl
    | _ => exact unlessBreaking misplaced

omit again in
theorem reportDepth_moved (halt : Halt) :
    (reportDepth halt).moved move = reportDepth (halt.moved move) := by
  cases halt with
  | fault fault => cases fault <;> rfl
  | outOfSteps => rfl

omit again in
theorem moved_run (program : Node) (world : World) :
    (run steps program).moved move world =
      match (execute steps depthLimit program).moved move world with
      | .ok value world => .ok value world
      | .error halt world => .error (reportDepth halt) world := by
  rw [moved, moved, run]
  cases execute steps depthLimit program world with
  | ok value last => rfl
  | error halt last => simp only [reportDepth_moved]

/-- The run of a program is the same wherever its tree stands, but for the place of a fault. -/
theorem run_moved (program : Node) :
    (run steps (program.moved move)).moved move = (run steps program).moved move := by
  funext world
  rw [moved_run, moved_run, execute_moved again]

end Machine

end LoopLang
