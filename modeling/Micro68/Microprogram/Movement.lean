import Micro68.Alu
import Micro68.Microprogram.Access

/-! Micro-programs that move values. -/
namespace Micro68.Microprogram

variable {κ : Type}

def move (i : Instruction) : Micro κ Unit := do
  store i .second i.size (← fill i .first i.size)

def moveQuick (i : Instruction) : Micro κ Unit := do
  store i .second i.size (← Micro.compute (Alu.logic i.size i.data.toUInt32))

def exchange (i : Instruction) : Micro κ Unit := do
  requireMode (← operand i .first) Mode.isRegister
  requireMode (← operand i .second) Mode.isRegister
  let src ← fill i .first i.size
  let dst ← fill i .second i.size
  store i .second i.size src
  store i .first i.size dst
  Micro.modifyRegs fun r => r.withFlags (r.flags.setVC false false)

/-- Puts the address of the first operand, not what it holds, into an address register. -/
def moveAddress (i : Instruction) : Micro κ Unit := do
  let src ← operand i .first
  requireMode src (· = .absolute)
  requireMode (← operand i .second) (· = .addressRegister)
  requireSize i .word
  store i .second .word src.address.toUInt32

end Micro68.Microprogram
