import LoopLang.Machine.Store

/-!
# The registers of a break

A pending break can be kept in two registers: how to break, and where to. A request for the
nearest loop does not touch the second one, so the two fit together only if whatever ends a
break clears both. A signal stands for the registers that do fit together, and asking for a
break, finishing it and leaving a loop come to the same on both sides.
-/
namespace LoopLang

inductive Control where
  | running
  | breakOne
  | breakTo
  deriving DecidableEq

/-- How to break, and where to. -/
structure Registers where
  control : Control
  target : Node
  deriving DecidableEq

namespace Registers

variable {registers : Registers}

def clear : Registers := ⟨.running, .text ""⟩

/-- Asks for a break. One for the nearest loop leaves the target as it is. -/
def request (registers : Registers) (target : Node) : Registers :=
  if registers.control = .running then
    if target.isGiven then ⟨.breakTo, target⟩ else { registers with control := .breakOne }
  else registers

def WellFormed (registers : Registers) : Prop :=
  registers.control = .breakTo ↔ registers.target.isGiven = true

theorem wellFormed_clear : clear.WellFormed := by
  simp [WellFormed, clear, Node.isGiven]

theorem WellFormed.request (wellFormed : registers.WellFormed) (target : Node) :
    (registers.request target).WellFormed := by
  unfold Registers.request
  split
  · rename_i running
    split
    · rename_i given
      simp [WellFormed, given]
    · have ungiven : registers.target.isGiven = false := by
        simpa [WellFormed, running] using wellFormed
      simp [WellFormed, ungiven]
  · exact wellFormed

theorem request_of_pending (pending : registers.control ≠ .running) (target : Node) :
    registers.request target = registers :=
  if_neg pending

end Registers

namespace Signal

/-- The registers that stand for a signal. -/
def registers : Signal → Registers
  | running => .clear
  | leaveNearest => ⟨.breakOne, .text ""⟩
  | leaveTo label => ⟨.breakTo, label⟩

variable {signal : Signal}

theorem control_eq_running : signal.registers.control = .running ↔ signal = .running := by
  cases signal <;> simp [registers, Registers.clear]

theorem isBreaking_of_control (pending : signal.registers.control ≠ .running) :
    signal.isBreaking = true := by
  cases signal with
  | running => exact absurd rfl pending
  | leaveNearest | leaveTo => rfl

theorem registers_eq_clear : signal.registers = .clear ↔ signal = .running := by
  cases signal <;> simp [registers, Registers.clear]

theorem registers_inj {signal' : Signal} :
    signal.registers = signal'.registers ↔ signal = signal' := by
  cases signal <;> cases signal' <;> simp [registers, Registers.clear]

end Signal

namespace State

def registers (state : State) : Registers :=
  state.signal.registers

theorem registers_requestBreak (state : State) (target : Node) :
    (state.requestBreak target).registers = state.registers.request target := by
  obtain ⟨store, signal⟩ := state
  cases signal with
  | running =>
    by_cases given : target.isGiven = true <;>
      simp [requestBreak, registers, Signal.isBreaking, Signal.ofTarget, Signal.registers,
        Registers.request, Registers.clear, given]
  | leaveNearest | leaveTo => rfl

end State

end LoopLang
