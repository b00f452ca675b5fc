import Micro68.Datapath

/-! Operand access by instruction and slot, and the checks that micro-programs make. -/
namespace Micro68.Microprogram

variable {κ : Type}

def operand (i : Instruction) (slot : Slot) : Micro κ Operand :=
  match i.operand? slot with
  | some op => return op
  | none => throw (.invalidOperandCount i.operandCount)

def fill (i : Instruction) (slot : Slot) (size : Size) : Micro κ UInt32 := do
  Micro.fill slot (← operand i slot) size

def store (i : Instruction) (slot : Slot) (size : Size) (x : UInt32) : Micro κ Unit := do
  Micro.store slot (← operand i slot) size x

def requireSize (i : Instruction) (size : Size) : Micro κ Unit :=
  if i.size = size then return () else throw (.invalidSize i.size.code)

def requireMode (op : Operand) (allowed : Mode → Bool) : Micro κ Unit :=
  if allowed op.mode then return () else throw (.invalidMode op.mode.code)

end Micro68.Microprogram
