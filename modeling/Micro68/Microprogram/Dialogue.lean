import Micro68.Alu
import Micro68.Console
import Micro68.Microprogram.Access

/-! Micro-programs that talk to the console. -/
namespace Micro68.Microprogram

variable {κ : Type}

/-- Where an operand will be found, without the side effect of finding it. -/
def preview (op : Operand) (size : Size) : Micro κ Location :=
  match op.mode with
  | .dataRegister => return .data op.index
  | .addressRegister => return .address op.index
  | .absolute => return .memory op.address
  | .indirect | .postIncrement => return .memory ((← get).regs.a.get op.index)
  | .preDecrement => return .memory ((← get).regs.a.get op.index - size.stride)
  | .reserved code => throw (.invalidMode code)

/-- Where an operand was found; a pointer that has moved since shows its noted address. -/
def review (slot : Slot) (op : Operand) : Micro κ Location := do
  let s ← get
  match op.mode with
  | .dataRegister => return .data op.index
  | .addressRegister => return .address op.index
  | .absolute => return .memory op.address
  | .indirect => return .memory (s.regs.a.get op.index)
  | .postIncrement | .preDecrement | .reserved _ =>
    return .memory ((s.adjusted.get slot).getD (s.regs.a.get op.index))

variable [Console κ]

def input (i : Instruction) : Micro κ Unit := do
  let target ← preview (← operand i .first) i.size
  let value ← Micro.readValue { size := i.size, target }
  store i .first i.size (← Micro.compute (Alu.logic i.size value.toUInt32))

def displayLine (found : Location) (size : Size) (x : UInt32) : String :=
  found.label ++ " = $" ++ Hex.plain (size.low x).toNat ++ " (" ++ size.name ++ ")"

def display (i : Instruction) : Micro κ Unit := do
  let op ← operand i .first
  let x ← fill i .first i.size
  Micro.writeLine (displayLine (← review .first op) i.size x)

def displayStatus : Micro κ Unit := do
  Micro.writeLine ("Status Bits = " ++ (← get).regs.flags.text)

end Micro68.Microprogram
