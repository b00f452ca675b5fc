import Micro68.Microprogram.Access

/-! Micro-programs that move the program counter or stop the machine. -/
namespace Micro68.Microprogram

variable {κ : Type}

/-- Does a branch go to its target? `BLE` is the negation of `BGE`. -/
def taken (opcode : Opcode) (f : Flags) : Bool :=
  match opcode with
  | .bvs => f.overflow
  | .beq => f.zero
  | .bcs => f.carry
  | .bge => f.greaterOrEqual
  | .ble => !f.greaterOrEqual
  | _ => true

/-- Goes to a word-sized absolute operand if the condition holds. -/
def branch (i : Instruction) : Micro κ Unit := do
  let target ← operand i .first
  requireMode target (· = .absolute)
  requireSize i .word
  if taken i.opcode (← get).regs.flags then Micro.modifyRegs (·.jump target.address)

def halt : Micro κ Unit := Micro.modifyRegs Registers.setHalt

end Micro68.Microprogram
