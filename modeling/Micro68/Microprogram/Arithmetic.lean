import Micro68.Alu
import Micro68.Microprogram.Access

/-! Micro-programs that compute: read the operands, first slot first, run an operation of the
arithmetic unit, and write its result back to the last slot read. -/
namespace Micro68.Microprogram

variable {κ : Type}

/-- Combines both operands into the second. -/
def combine (op : AluOp) (i : Instruction) : Micro κ Unit := do
  let src ← fill i .first i.size
  let dst ← fill i .second i.size
  store i .second i.size (← Micro.compute (op i.size src dst))

def combineQuick (op : AluOp) (i : Instruction) : Micro κ Unit := do
  let dst ← fill i .second i.size
  store i .second i.size (← Micro.compute (op i.size i.data.toUInt32 dst))

def change (op : Size → UInt32 → Flags → UInt32 × Flags) (i : Instruction) : Micro κ Unit := do
  let dst ← fill i .first i.size
  store i .first i.size (← Micro.compute (op i.size dst))

/-- Sets the status bits by both operands and drops the result. -/
def compare (op : AluOp) (i : Instruction) : Micro κ Unit := do
  let src ← fill i .first i.size
  let dst ← fill i .second i.size
  discard (Micro.compute (op i.size src dst))

def test (i : Instruction) : Micro κ Unit := do
  let dst ← fill i .first i.size
  discard (Micro.compute (Alu.logic i.size dst))

/-- Clears the first operand without reading it. -/
def clear (i : Instruction) : Micro κ Unit := do
  store i .first i.size (← Micro.compute (Alu.logic i.size 0))

def complement : Instruction → Micro κ Unit := change fun size dst => Alu.logic size (~~~dst)

/-- Word times word gives a long, written where the second word was read; Z and N follow its low
word. -/
def multiply (i : Instruction) : Micro κ Unit := do
  requireSize i .word
  let src ← fill i .first .word
  let dst ← fill i .second .word
  store i .second .long (← Micro.compute (Alu.logic .word (Alu.product src dst)))

/-- Long by word gives a word of remainder and a word of quotient. -/
def divide (i : Instruction) : Micro κ Unit := do
  requireSize i .long
  let divisor := Alu.signExtendWord (← fill i .first .word)
  if divisor = 0 then throw .divisionByZero
  let (quotient, remainder) := Alu.divide divisor (← fill i .second .long).toInt32
  store i .second .long (← Micro.compute (Alu.packQuotient quotient remainder))

end Micro68.Microprogram
