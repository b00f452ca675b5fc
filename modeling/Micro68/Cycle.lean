import Micro68.Instruction.Encoding
import Micro68.Microprogram

/-! One cycle: fetch the opcode word, decode it, fetch the operands' addresses, execute. Every phase after
the first looks at H before it begins. A fault in any phase ends the cycle and keeps what the phases
before it changed. -/
namespace Micro68

namespace Micro

variable {κ : Type}

/-- Reads the extension word of every absolute operand, first slot first. -/
def fetchAddresses (i : Instruction) : Micro κ Instruction :=
  i.absoluteSlots.foldlM (fun i slot => return i.setAddress slot (← fetchWord)) i

/-- Completes an instruction; the quick format has room for one operand only. -/
def fetchOperands (i : Instruction) : Micro κ Instruction :=
  if i.operandCount = 2 ∧ i.opcode.format = .quick then throw (.invalidOperandCount i.operandCount)
  else fetchAddresses i

end Micro

/-- How a cycle ended. -/
structure CycleResult (κ : Type) where
  state : Datapath κ
  /-- The instruction, as far as it was completed; none if no word could be fetched and decoded. -/
  instruction : Option Instruction
  fault : Option Fault

namespace Datapath

variable {κ : Type} [Console κ]

def executePhase (s : Datapath κ) (i : Instruction) : CycleResult κ :=
  if s.regs.flags.halt then ⟨s, some i, none⟩
  else match i.execute s with
    | .ok _ s => ⟨s, some i, none⟩
    | .error f s => ⟨s, some i, some f⟩

def operandPhase (s : Datapath κ) (i : Instruction) : CycleResult κ :=
  if s.regs.flags.halt then ⟨s, some i, none⟩
  else match Micro.fetchOperands i s with
    | .ok i s => executePhase s i
    | .error f s => ⟨s, some i, some f⟩

def decodePhase (s : Datapath κ) (word : UInt16) : CycleResult κ :=
  if s.regs.flags.halt then ⟨s, none, none⟩
  else match Instruction.decode word with
    | .ok i => operandPhase s i
    | .error f => ⟨s, none, some f⟩

/-- Runs all phases. The notes of the cycle before are forgotten first. -/
def cycle (s : Datapath κ) : CycleResult κ :=
  match Micro.fetchWord { s with adjusted := {} } with
  | .ok word s => decodePhase s word
  | .error f s => ⟨s, none, some f⟩

/-- Reports a fault to the console and sets H. -/
def stop (s : Datapath κ) (d : Diagnostic) : Datapath κ :=
  { s with console := Console.reportFault s.console d, regs := s.regs.setHalt }

end Datapath
end Micro68
